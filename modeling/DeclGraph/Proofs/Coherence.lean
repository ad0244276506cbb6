import DeclGraph.Proofs.Views

/-!
# Coherent graphs

The owner of a slot, the member list of a container, its index and the companion
links all tell of one tree.  A graph is consistent when they agree, and coherent if
there is also an id left for one more slot.  This is the invariant behind everything
that is said about graphs that were built by requests.

Main results:

- Theorem `Coherent.empty`: the graph of the root alone is coherent.
- Theorems `Coherent.consistent_enlist` and `Coherent.enlist`: a new member that fits
  into its container keeps a graph consistent, and coherent if ids are left.
- Theorem `Coherent.modify`: a change that leaves a declaration in its place keeps a
  graph coherent.
- Theorem `Coherent.detach`: detaching a method keeps a graph coherent.
-/

namespace DeclGraph
namespace Graph

/-- Owners, members, indexes and companions tell of one tree. -/
structure Consistent (g : Graph) : Prop where
  /-- Every slot has its entry in the table of owners. -/
  size_owners : g.owners.size = g.size
  /-- The root is the unnamed package. -/
  key?_root : g.key? root = some (.package, Name.empty)
  /-- Nothing owns the root. -/
  owner?_root : g.owner? root = none
  /-- The members of a container are what it owns. -/
  mem_memberIds : ∀ {container member},
    member ∈ g.memberIds container ↔ g.owner? member = some container
  /-- A container is older than its members. -/
  owner_lt : ∀ {container member}, g.owner? member = some container →
    container.index < member.index
  /-- Members stand in the order of their age. -/
  sorted : ∀ container, (g.memberIds container).Pairwise fun a b => a.index < b.index
  /-- Packages are owned by packages. -/
  package_owner : ∀ {container member}, g.owner? member = some container →
    g.kind? member = some .package → g.kind? container = some .package
  /-- Besides the root only methods are without an owner. -/
  unowned : ∀ {id : DeclId}, id.index < g.size → g.owner? id = none →
    id = root ∨ g.kind? id = some .method
  /-- The index finds the members under their keys. -/
  lookup_eq_some : ∀ {container : DeclId} {key : Key} {id : DeclId},
    g.lookup container key = some id ↔ g.owner? id = some container ∧ g.key? id = some key
  /-- Companions are members of one container under partner keys. -/
  companion?_eq_some : ∀ {id other}, g.companion? id = some other ↔
    ∃ container key partner, g.owner? id = some container ∧ g.owner? other = some container ∧
      g.key? id = some key ∧ key.partner? = some partner ∧ g.key? other = some partner

/-- A graph is coherent if it is consistent and has an id left for one more slot. -/
structure Coherent (g : Graph) : Prop extends Consistent g where
  /-- The next slot has an id. -/
  size_lt : g.size < UInt32.size

namespace Consistent

variable {g : Graph}

/-- The root is a container. -/
theorem isSome_key?_root (hg : Consistent g) : (g.key? root).isSome := by
  rw [hg.key?_root, Option.isSome_some]

/-- Only slots of the graph are owned. -/
theorem index_lt_of_owner? (hg : Consistent g) {container member : DeclId}
    (h : g.owner? member = some container) : member.index < g.size := by
  rcases Option.join_eq_some_iff.mp h with howner
  rw [← hg.size_owners]
  exact (Array.getElem?_eq_some_iff.mp howner).1

/-- The root has no owner, and so whatever has one is not the root. -/
theorem ne_root_of_owner? (hg : Consistent g) {container member : DeclId}
    (h : g.owner? member = some container) : member ≠ root := by
  rintro rfl
  rw [hg.owner?_root] at h
  contradiction

/-- Only containers own anything. -/
theorem isSome_key?_of_owner? (hg : Consistent g) {container member : DeclId}
    (h : g.owner? member = some container) : (g.key? container).isSome := by
  have hmember := hg.mem_memberIds.mpr h
  cases hget : g.get? container with
  | none => simp [memberIds, hget] at hmember
  | some decl =>
      cases hkey : decl.key? with
      | none => simp [memberIds, hget, Decl.memberIds_of_key?_eq_none hkey] at hmember
      | some key => simp [key?, hget, hkey]

/-- Every container is the root or owned. -/
theorem eq_root_or_owned (hg : Consistent g) {id : DeclId} (h : (g.key? id).isSome) :
    id = root ∨ ∃ container, g.owner? id = some container := by
  cases howner : g.owner? id with
  | some container => exact Or.inr ⟨container, rfl⟩
  | none =>
      rcases Option.isSome_iff_exists.mp h with ⟨key, hkey⟩
      rcases hg.unowned (index_lt_of_key? hkey) howner with hroot | hmethod
      · exact Or.inl hroot
      · rw [key?_of_method hmethod] at hkey
        contradiction

/-- Two members of one container with one key are one member. -/
theorem eq_of_key?_eq (hg : Consistent g) {container a b : DeclId} {key : Key}
    (ha : g.owner? a = some container) (hb : g.owner? b = some container)
    (haKey : g.key? a = some key) (hbKey : g.key? b = some key) : a = b := by
  have hfindA := hg.lookup_eq_some.mpr ⟨ha, haKey⟩
  have hfindB := hg.lookup_eq_some.mpr ⟨hb, hbKey⟩
  rw [hfindA] at hfindB
  exact Option.some.inj hfindB

/-- The members of a container are all different. -/
theorem nodup_memberIds (hg : Consistent g) (container : DeclId) :
    (g.memberIds container).Nodup := by
  apply (hg.sorted container).imp
  intro a b hlt heq
  rw [heq] at hlt
  exact Nat.lt_irrefl _ hlt

end Consistent

namespace Coherent

variable {g : Graph}

/-- A new member is owned by its container. -/
theorem owner?_enlist (hg : Coherent g) (container : DeclId) (decl : Decl) (id : DeclId) :
    (g.enlist container decl).owner? id =
      if id = g.nextId then some container else g.owner? id :=
  Graph.owner?_enlist hg.size_lt hg.size_owners container decl id

/-- Nothing owns the next slot yet. -/
theorem owner?_nextId (hg : Coherent g) : g.owner? g.nextId = none := by
  cases h : g.owner? g.nextId with
  | none => rfl
  | some container =>
      have hlt := hg.index_lt_of_owner? h
      rw [index_nextId hg.size_lt] at hlt
      exact absurd hlt (Nat.lt_irrefl _)

/-- The next slot owns nothing yet. -/
theorem owner?_ne_nextId (hg : Coherent g) {member : DeclId} :
    g.owner? member ≠ some g.nextId := by
  intro h
  rcases Option.isSome_iff_exists.mp (hg.isSome_key?_of_owner? h) with ⟨key, hkey⟩
  exact ne_nextId_of_key? hg.size_lt hkey rfl

end Coherent

/-! ## The root alone -/

/-- Besides the root there is nothing yet. -/
theorem get?_empty {id : DeclId} (h : id ≠ root) : Graph.empty.get? id = none :=
  get?_eq_none_iff.mpr (Nat.one_le_iff_ne_zero.mpr fun hzero => h (DeclId.eq_of_index_eq hzero))

/-- The root has no members yet. -/
theorem memberIds_empty (id : DeclId) : Graph.empty.memberIds id = [] := by
  by_cases hid : id = root
  · subst hid; rfl
  · simp [memberIds, get?_empty hid]

/-- No names were issued yet. -/
theorem issued_empty (id : DeclId) : Graph.empty.issued id = 0 := by
  by_cases hid : id = root
  · subst hid; rfl
  · simp [issued, get?_empty hid]

/-- The graph of the root alone is coherent. -/
theorem Coherent.empty : Coherent Graph.empty := by
  have howner : ∀ id : DeclId, Graph.empty.owner? id = none := by
    intro id
    rcases hindex : id.index with _ | n <;> simp [owner?, Graph.empty, hindex]
  have hlookup : ∀ (id : DeclId) (key : Key), Graph.empty.lookup id key = none := by
    intro id key
    by_cases hid : id = root
    · subst hid; rfl
    · simp [lookup, index, get?_empty hid]
  have hcompanion : ∀ id : DeclId, Graph.empty.companion? id = none := by
    intro id
    by_cases hid : id = root
    · subst hid; rfl
    · simp [companion?, get?_empty hid]
  refine
    { size_owners := rfl
      size_lt := by decide
      key?_root := rfl
      owner?_root := howner root
      mem_memberIds := by simp [memberIds_empty, howner]
      owner_lt := by simp [howner]
      sorted := by simp [memberIds_empty]
      package_owner := by simp [howner]
      unowned := ?_
      lookup_eq_some := by simp [hlookup, howner]
      companion?_eq_some := by simp [hcompanion, howner] }
  intro id hid _
  left
  by_contra hne
  have hlt := get?_eq_none_iff.mp (get?_empty hne)
  omega

/-! ## A new member -/

/-- A declaration can be made a new member of a container. -/
structure Fits (g : Graph) (container : DeclId) (decl : Decl) : Prop where
  /-- There is such a container. -/
  isContainer : (g.key? container).isSome
  /-- The declaration comes without members. -/
  memberIds : decl.memberIds = []
  /-- The declaration comes without an index. -/
  index : decl.index = []
  /-- The container has no member with its key yet. -/
  fresh : ∀ key, decl.key? = some key → g.lookup container key = none
  /-- Its companion is the member with the partner key. -/
  companion? : decl.companion? = (decl.key?.bind Key.partner?).bind (g.lookup container)
  /-- Packages go into packages. -/
  package : decl.kind = .package → g.kind? container = some .package

namespace Fits

variable {g : Graph} {container : DeclId} {decl : Decl}

/-- The companion of a new member is in the same container under the partner key. -/
theorem companion?_eq_some (hfits : Fits g container decl) (hg : Coherent g) {other : DeclId} :
    decl.companion? = some other ↔
      ∃ key partner, decl.key? = some key ∧ key.partner? = some partner ∧
        g.owner? other = some container ∧ g.key? other = some partner := by
  rw [hfits.companion?]
  constructor
  · intro h
    rcases Option.bind_eq_some_iff.mp h with ⟨partner, hpartner, hlookup⟩
    rcases Option.bind_eq_some_iff.mp hpartner with ⟨key, hkey, hpartner⟩
    rcases hg.lookup_eq_some.mp hlookup with ⟨howner, hother⟩
    exact ⟨key, partner, hkey, hpartner, howner, hother⟩
  · intro hgiven
    rcases hgiven with ⟨key, partner, hkey, hpartner, howner, hother⟩
    simp [hkey, hpartner, hg.lookup_eq_some.mpr ⟨howner, hother⟩]

/-- The companion of a new member is a class or object. -/
theorem exists_partner (hfits : Fits g container decl) (hg : Coherent g) (other : DeclId)
    (h : decl.companion? = some other) :
    ∃ key partner, g.key? other = some key ∧ key.partner? = some partner := by
  rcases (hfits.companion?_eq_some hg).mp h with ⟨key, partner, -, hpartner, -, hother⟩
  exact ⟨partner, key, hother, Key.partner?_symm hpartner⟩

/-- Another member of the container does not have the key of the new one. -/
theorem key?_ne (hfits : Fits g container decl) (hg : Coherent g) {other : DeclId} {key : Key}
    (hkey : decl.key? = some key) (howner : g.owner? other = some container) :
    g.key? other ≠ some key := by
  intro hother
  have hfound := hg.lookup_eq_some.mpr ⟨howner, hother⟩
  rw [hfits.fresh key hkey] at hfound
  contradiction

variable (hfits : Fits g container decl) (hg : Coherent g)

include hfits hg

theorem header? (id : DeclId) :
    (g.enlist container decl).header? id =
      if id = g.nextId then some decl.header else g.header? id :=
  header?_enlist hg.size_lt hfits.isContainer (hfits.exists_partner hg) id

theorem kind? (id : DeclId) :
    (g.enlist container decl).kind? id =
      if id = g.nextId then some decl.kind else g.kind? id := by
  rw [kind?_eq_header?, hfits.header? hg, kind?_eq_header?]
  split <;> simp

theorem key? (id : DeclId) :
    (g.enlist container decl).key? id =
      if id = g.nextId then decl.key? else g.key? id := by
  rw [key?_eq_header?, hfits.header? hg, key?_eq_header?]
  split <;> simp

theorem mem_memberIds (id : DeclId) :
    (g.enlist container decl).memberIds id =
      if id = container then g.memberIds container ++ [g.nextId] else g.memberIds id :=
  memberIds_enlist hg.size_lt hfits.isContainer (hfits.exists_partner hg) hfits.memberIds id

theorem lookup (id : DeclId) (key : Key) :
    (g.enlist container decl).lookup id key =
      if id = container ∧ decl.key? = some key then some g.nextId else g.lookup id key :=
  lookup_enlist hg.size_lt hfits.isContainer (hfits.exists_partner hg) hfits.index id key

theorem companion?_enlist (id : DeclId) :
    (g.enlist container decl).companion? id =
      if id = g.nextId then decl.companion?
      else if decl.companion? = some id then some g.nextId else g.companion? id :=
  Graph.companion?_enlist hg.size_lt hfits.isContainer (hfits.exists_partner hg) id

end Fits

namespace Coherent

variable {g : Graph} {container : DeclId} {decl : Decl}

/-- After a member was enlisted the index finds the members under their keys. -/
private theorem lookup_enlist_eq_some (hg : Coherent g) (hfits : Fits g container decl)
    {owner : DeclId} {key : Key} {id : DeclId} :
    (g.enlist container decl).lookup owner key = some id ↔
      (g.enlist container decl).owner? id = some owner ∧
        (g.enlist container decl).key? id = some key := by
  rw [hfits.lookup hg, hg.owner?_enlist, hfits.key? hg]
  by_cases hnew : owner = container ∧ decl.key? = some key
  · rw [if_pos hnew]
    rcases hnew with ⟨rfl, hkey⟩
    by_cases hid : id = g.nextId
    · simp [hid, hkey]
    · simp only [if_neg hid]
      constructor
      · intro h
        exact absurd (Option.some.inj h).symm hid
      · intro hgiven
        rcases hgiven with ⟨howner, hother⟩
        exact absurd hother (hfits.key?_ne hg hkey howner)
  · rw [if_neg hnew]
    by_cases hid : id = g.nextId
    · simp only [if_pos hid]
      constructor
      · intro h
        rw [hid] at h
        have howner := (hg.lookup_eq_some.mp h).1
        rw [hg.owner?_nextId] at howner
        contradiction
      · intro hgiven
        rcases hgiven with ⟨howner, hkey⟩
        exact absurd ⟨(Option.some.inj howner).symm, hkey⟩ hnew
    · simp only [if_neg hid]
      exact hg.lookup_eq_some

/-- After a member was enlisted companions are members of one container under partner keys. -/
private theorem companion?_enlist_eq_some (hg : Coherent g) (hfits : Fits g container decl)
    {id other : DeclId} :
    (g.enlist container decl).companion? id = some other ↔
      ∃ owner key partner, (g.enlist container decl).owner? id = some owner ∧
        (g.enlist container decl).owner? other = some owner ∧
        (g.enlist container decl).key? id = some key ∧ key.partner? = some partner ∧
        (g.enlist container decl).key? other = some partner := by
  simp only [hfits.companion?_enlist hg, hg.owner?_enlist, hfits.key? hg]
  by_cases hid : id = g.nextId
  · -- The new member: its companion was looked up before it was enlisted.
    simp only [if_pos hid]
    rw [hfits.companion?_eq_some hg]
    by_cases hother : other = g.nextId
    · constructor
      · intro hgiven
        rcases hgiven with ⟨-, -, -, -, howner, -⟩
        rw [hother, hg.owner?_nextId] at howner
        contradiction
      · intro hgiven
        rcases hgiven with ⟨owner, key, partner, -, -, hkey, hpartner, hsame⟩
        rw [if_pos hother, hkey] at hsame
        exact absurd (Option.some.inj hsame).symm (Key.partner?_ne hpartner)
    · simp only [if_neg hother]
      constructor
      · intro hgiven
        rcases hgiven with ⟨key, partner, hkey, hpartner, howner, hotherKey⟩
        exact ⟨container, key, partner, rfl, howner, hkey, hpartner, hotherKey⟩
      · intro hgiven
        rcases hgiven with ⟨owner, key, partner, hsame, howner, hkey, hpartner, hotherKey⟩
        exact ⟨key, partner, hkey, hpartner, howner.trans hsame.symm, hotherKey⟩
  · simp only [if_neg hid]
    by_cases hmate : decl.companion? = some id
    · -- The companion of the new member: it had no companion of its own before.
      rcases (hfits.companion?_eq_some hg).mp hmate with
        ⟨key, partner, hkey, hpartner, howner, hidKey⟩
      simp only [if_pos hmate]
      constructor
      · intro h
        refine ⟨container, partner, key, howner, ?_, hidKey, Key.partner?_symm hpartner, ?_⟩ <;>
          simp [← Option.some.inj h, hkey]
      · intro hgiven
        rcases hgiven with
          ⟨owner, idKey, otherKey, hidOwner, hotherOwner, hidKey', hpartner', hotherKey⟩
        by_cases hother : other = g.nextId
        · rw [hother]
        · rw [if_neg hother] at hotherOwner hotherKey
          rw [howner] at hidOwner
          rw [hidKey] at hidKey'
          have hback := Key.partner?_symm hpartner
          rw [Option.some.inj hidKey', hpartner'] at hback
          rw [Option.some.inj hback] at hotherKey
          rw [← Option.some.inj hidOwner] at hotherOwner
          exact absurd hotherKey (hfits.key?_ne hg hkey hotherOwner)
    · simp only [if_neg hmate]
      by_cases hother : other = g.nextId
      · simp only [if_pos hother]
        constructor
        · intro h
          rcases hg.companion?_eq_some.mp h with ⟨owner, -, -, -, howner, -⟩
          rw [hother, hg.owner?_nextId] at howner
          contradiction
        · intro hgiven
          rcases hgiven with ⟨owner, key, partner, howner, hsame, hkey, hpartner, hdecl⟩
          refine absurd ((hfits.companion?_eq_some hg).mpr ?_) hmate
          exact ⟨partner, key, hdecl, Key.partner?_symm hpartner, howner.trans hsame.symm, hkey⟩
      · simp only [if_neg hother]
        exact hg.companion?_eq_some

/-- A new member that fits into its container keeps a graph consistent, even if it takes the last
id. -/
theorem consistent_enlist (hg : Coherent g) (hfits : Fits g container decl) :
    Consistent (g.enlist container decl) := by
  have hnext := index_nextId hg.size_lt
  have hrootNe : root ≠ g.nextId := ne_nextId_of_key? hg.size_lt hg.key?_root
  rcases Option.isSome_iff_exists.mp hfits.isContainer with ⟨containerKey, hcontainerKey⟩
  have hcontainerLt := index_lt_of_key? hcontainerKey
  have hcontainerNe := ne_nextId_of_key? hg.size_lt hcontainerKey
  refine
    { size_owners := by simp [owners_enlist, hg.size_owners]
      key?_root := by simpa [hfits.key? hg, hrootNe] using hg.key?_root
      owner?_root := by simpa [hg.owner?_enlist, hrootNe] using hg.owner?_root
      mem_memberIds := ?_
      owner_lt := ?_
      sorted := ?_
      package_owner := ?_
      unowned := ?_
      lookup_eq_some := hg.lookup_enlist_eq_some hfits
      companion?_eq_some := hg.companion?_enlist_eq_some hfits }
  · intro owner member
    rw [hfits.mem_memberIds hg, hg.owner?_enlist]
    by_cases howner : owner = container
    · rw [if_pos howner, List.mem_append, List.mem_singleton, hg.mem_memberIds, howner]
      by_cases hmember : member = g.nextId <;> simp [hmember, hg.owner?_nextId]
    · rw [if_neg howner, hg.mem_memberIds]
      by_cases hmember : member = g.nextId
      · simp [hmember, hg.owner?_nextId, Ne.symm howner]
      · simp [hmember]
  · intro owner member h
    rw [hg.owner?_enlist] at h
    by_cases hmember : member = g.nextId
    · rw [if_pos hmember] at h
      rw [hmember, hnext, ← Option.some.inj h]
      exact hcontainerLt
    · rw [if_neg hmember] at h
      exact hg.owner_lt h
  · intro owner
    rw [hfits.mem_memberIds hg]
    by_cases howner : owner = container
    · rw [if_pos howner, List.pairwise_append]
      refine ⟨hg.sorted container, List.pairwise_singleton .., ?_⟩
      intro a ha b hb
      rw [List.mem_singleton.mp hb, hnext]
      exact hg.index_lt_of_owner? (hg.mem_memberIds.mp ha)
    · rw [if_neg howner]
      exact hg.sorted owner
  · intro owner member h hkind
    rw [hg.owner?_enlist] at h
    rw [hfits.kind? hg] at hkind ⊢
    by_cases hmember : member = g.nextId
    · rw [if_pos hmember] at h hkind
      rw [← Option.some.inj h, if_neg hcontainerNe]
      exact hfits.package (Option.some.inj hkind)
    · rw [if_neg hmember] at h hkind
      have hownerNe : owner ≠ g.nextId := fun heq => hg.owner?_ne_nextId (heq ▸ h)
      rw [if_neg hownerNe]
      exact hg.package_owner h hkind
  · intro id hid h
    rw [hg.owner?_enlist] at h
    rw [hfits.kind? hg]
    by_cases hnew : id = g.nextId
    · rw [if_pos hnew] at h
      contradiction
    · rw [if_neg hnew] at h ⊢
      have hne : id.index ≠ g.size := fun heq =>
        hnew (DeclId.eq_of_index_eq (heq.trans hnext.symm))
      rw [size_enlist] at hid
      exact hg.unowned (by omega) h

/-- A new member that fits into its container keeps a graph coherent. -/
theorem enlist (hg : Coherent g) (hfits : Fits g container decl)
    (hsize : g.size + 1 < UInt32.size) : Coherent (g.enlist container decl) where
  toConsistent := hg.consistent_enlist hfits
  size_lt := by simpa using hsize

end Coherent

/-! ## A change in place -/

/-- Both graphs have the same slots, and what places a declaration in the tree is the same in
both. -/
structure SameTree (g h : Graph) : Prop where
  size : h.size = g.size
  owners : h.owners = g.owners
  kind? : ∀ id, h.kind? id = g.kind? id
  key? : ∀ id, h.key? id = g.key? id
  memberIds : ∀ id, h.memberIds id = g.memberIds id
  index : ∀ id, h.index id = g.index id
  companion? : ∀ id, h.companion? id = g.companion? id

namespace SameTree

variable {g h : Graph}

theorem owner? (hsame : SameTree g h) (id : DeclId) : h.owner? id = g.owner? id := by
  rw [Graph.owner?, hsame.owners, Graph.owner?]

theorem lookup (hsame : SameTree g h) (id : DeclId) (key : Key) :
    h.lookup id key = g.lookup id key := by
  rw [Graph.lookup, hsame.index, Graph.lookup]

/-- Coherence is about the tree only. -/
theorem coherent (hsame : SameTree g h) (hg : Coherent g) : Coherent h where
  size_owners := by rw [hsame.owners, hsame.size, hg.size_owners]
  size_lt := by rw [hsame.size]; exact hg.size_lt
  key?_root := by rw [hsame.key?, hg.key?_root]
  owner?_root := by rw [hsame.owner?, hg.owner?_root]
  mem_memberIds := by
    intro container member
    rw [hsame.memberIds, hsame.owner?]
    exact hg.mem_memberIds
  owner_lt := by
    intro container member howner
    rw [hsame.owner?] at howner
    exact hg.owner_lt howner
  sorted := by
    intro container
    rw [hsame.memberIds]
    exact hg.sorted container
  package_owner := by
    intro container member howner hkind
    rw [hsame.owner?] at howner
    rw [hsame.kind?] at hkind ⊢
    exact hg.package_owner howner hkind
  unowned := by
    intro id hlt howner
    rw [hsame.size] at hlt
    rw [hsame.owner?] at howner
    rw [hsame.kind?]
    exact hg.unowned hlt howner
  lookup_eq_some := by
    intro container key id
    rw [hsame.lookup, hsame.owner?, hsame.key?]
    exact hg.lookup_eq_some
  companion?_eq_some := by
    intro id other
    simp only [hsame.companion?, hsame.owner?, hsame.key?]
    exact hg.companion?_eq_some

end SameTree

/-- Two declarations agree in what places them in the tree. -/
structure SamePlace (a b : Decl) : Prop where
  kind : a.kind = b.kind
  key? : a.key? = b.key?
  memberIds : a.memberIds = b.memberIds
  index : a.index = b.index
  companion? : a.companion? = b.companion?

private theorem join_map_eq_bind {α β : Type} (f : α → Option β) (a : Option α) :
    (a.map f).join = a.bind f := by
  cases a <;> rfl

/-- What a change of one declaration leaves alone is the same in the whole graph. -/
private theorem map_get?_modify {α : Type} {g : Graph} {id : DeclId} {change : Decl → Decl}
    (view : Decl → α) (h : ∀ decl, g.get? id = some decl → view (change decl) = view decl)
    (other : DeclId) : ((g.modify id change).get? other).map view = (g.get? other).map view := by
  rw [get?_modify]
  by_cases hid : other = id
  · subst hid
    cases hget : g.get? other with
    | none => simp
    | some decl => simp [h decl hget]
  · rw [if_neg hid]

/-- A change that leaves a declaration in its place leaves the tree as it is. -/
theorem sameTree_modify {g : Graph} {id : DeclId} {change : Decl → Decl}
    (h : ∀ decl, g.get? id = some decl → SamePlace (change decl) decl) :
    SameTree g (g.modify id change) where
  size := size_modify g id change
  owners := owners_modify g id change
  kind? other := map_get?_modify Decl.kind (fun decl hdecl => (h decl hdecl).kind) other
  key? other := by
    have hmap := map_get?_modify Decl.key? (fun decl hdecl => (h decl hdecl).key?) other
    rw [key?, ← join_map_eq_bind, hmap, join_map_eq_bind, ← key?]
  memberIds other := by
    have hmap := map_get?_modify Decl.memberIds (fun decl hdecl => (h decl hdecl).memberIds) other
    rw [memberIds, hmap, memberIds]
  index other := by
    have hmap := map_get?_modify Decl.index (fun decl hdecl => (h decl hdecl).index) other
    rw [index, hmap, index]
  companion? other := by
    have hmap := map_get?_modify Decl.companion? (fun decl hdecl => (h decl hdecl).companion?) other
    rw [companion?, ← join_map_eq_bind, hmap, join_map_eq_bind, ← companion?]

/-- A change that leaves a declaration in its place keeps a graph coherent. -/
theorem Coherent.modify {g : Graph} {id : DeclId} {change : Decl → Decl} (hg : Coherent g)
    (h : ∀ decl, g.get? id = some decl → SamePlace (change decl) decl) :
    Coherent (g.modify id change) :=
  (sameTree_modify h).coherent hg

/-! ## A detached method -/

/-- Detaching a method keeps a graph coherent. -/
theorem Coherent.detach {g : Graph} {container member : DeclId} (hg : Coherent g)
    (howner : g.owner? member = some container) (hkind : g.kind? member = some .method) :
    Coherent (g.detach container member) := by
  have hnoKey := key?_of_method hkind
  have hownerOld : ∀ {id owner : DeclId}, (g.detach container member).owner? id = some owner →
      g.owner? id = some owner := by
    intro id owner h
    rw [owner?_detach] at h
    split at h
    · contradiction
    · exact h
  have hownerKeyed : ∀ {id : DeclId} {key : Key}, g.key? id = some key →
      (g.detach container member).owner? id = g.owner? id := by
    intro id key hkey
    have hne : id ≠ member := by
      intro h
      rw [h, hnoKey] at hkey
      contradiction
    rw [owner?_detach, if_neg hne]
  refine
    { size_owners := by simp [hg.size_owners]
      size_lt := by simpa using hg.size_lt
      key?_root := by rw [key?_detach, hg.key?_root]
      owner?_root := by rw [hownerKeyed hg.key?_root, hg.owner?_root]
      mem_memberIds := ?_
      owner_lt := fun h => hg.owner_lt (hownerOld h)
      sorted := ?_
      package_owner := ?_
      unowned := ?_
      lookup_eq_some := ?_
      companion?_eq_some := ?_ }
  · intro owner id
    rw [memberIds_detach, owner?_detach]
    by_cases hid : id = member
    · subst hid
      by_cases hcontainer : owner = container
      · simp [hcontainer, (hg.nodup_memberIds container).mem_erase_iff]
      · simp [hcontainer, hg.mem_memberIds, howner, Ne.symm hcontainer]
    · rw [if_neg hid, ← hg.mem_memberIds]
      by_cases hcontainer : owner = container
      · rw [if_pos hcontainer, List.mem_erase_of_ne hid]
      · rw [if_neg hcontainer]
  · intro owner
    rw [memberIds_detach]
    split
    · exact (hg.sorted owner).sublist List.erase_sublist
    · exact hg.sorted owner
  · intro owner id h hpackage
    rw [kind?_detach] at hpackage ⊢
    exact hg.package_owner (hownerOld h) hpackage
  · intro id hlt h
    rw [size_detach] at hlt
    rw [kind?_detach]
    by_cases hid : id = member
    · exact Or.inr (hid ▸ hkind)
    · rw [owner?_detach, if_neg hid] at h
      exact hg.unowned hlt h
  · intro owner key id
    rw [lookup, index_detach, ← lookup, key?_detach, hg.lookup_eq_some]
    constructor
    · intro hgiven
      rcases hgiven with ⟨h, hkey⟩
      exact ⟨(hownerKeyed hkey).trans h, hkey⟩
    · intro hgiven
      rcases hgiven with ⟨h, hkey⟩
      exact ⟨(hownerKeyed hkey).symm.trans h, hkey⟩
  · intro id other
    simp only [companion?_detach, key?_detach, hg.companion?_eq_some]
    constructor
    · intro hgiven
      rcases hgiven with ⟨owner, key, partner, h, hother, hkey, hpartner, hotherKey⟩
      exact ⟨owner, key, partner, (hownerKeyed hkey).trans h, (hownerKeyed hotherKey).trans hother,
        hkey, hpartner, hotherKey⟩
    · intro hgiven
      rcases hgiven with ⟨owner, key, partner, h, hother, hkey, hpartner, hotherKey⟩
      exact ⟨owner, key, partner, hownerOld h, hownerOld hother, hkey, hpartner, hotherKey⟩

end Graph
end DeclGraph
