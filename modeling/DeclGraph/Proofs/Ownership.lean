import DeclGraph.Proofs.Protocol
import Mathlib.Logic.Relation

/-!
# Owners and member lists

The table of owners and the member lists of the containers are two copies of one
tree.  In every graph that is built by requests, edits in place and merges they
agree, and a declaration is attached exactly if it is reachable from the root.

Main results:

- Theorem `Accounted.outcome` and Theorem `Accounted.merge`: the only slots that
  lose their owner are those of the methods that are taken out.
- Theorem `Consistent.isAttached_iff`: attached declarations are the reachable ones.
- Theorem `Consistent.toOwnerTree`: in a consistent graph owners and member lists agree.
- Theorem `Built.ownerTree`: they agree in every built graph.
-/

namespace DeclGraph

open DeclGraph.Graph

/-! ## Slots without an owner -/

/-- The slots without an owner are the root and the methods that were taken out. -/
structure Accounted (removed : List DeclId) (g : Graph) : Prop where
  method : ∀ id ∈ removed, g.kind? id = some .method
  unowned : ∀ {id : DeclId}, id.index < g.size → (g.owner? id = none ↔ id = root ∨ id ∈ removed)

namespace Accounted

variable {g h : Graph} {removed : List DeclId}

theorem empty : Accounted [] Graph.empty where
  method := by simp
  unowned := by
    intro id hid
    have hroot : id = root := DeclId.eq_of_index_eq (Nat.lt_one_iff.mp hid)
    simp [hroot, Coherent.empty.owner?_root]

/-- A graph with the same owners and kinds is accounted for in the same way. -/
theorem of_sameTree (hacc : Accounted removed g) (hsame : SameTree g h) :
    Accounted removed h where
  method := by
    intro id hid
    rw [hsame.kind?, hacc.method id hid]
  unowned := by
    intro id hid
    rw [hsame.size] at hid
    rw [hsame.owner?, hacc.unowned hid]

/-- A request keeps account of what it takes out. -/
theorem outcome {naming : Naming} {record record' : Record} {g' : Graph}
    (hacc : Accounted record.removed g) (hg : Coherent g)
    (hout : Outcome naming record g record' g') : Accounted record'.removed g' := by
  cases hout with
  | found => exact hacc
  | @enlisted container decl hfits hissued hnamed =>
      have hnext := index_nextId hg.size_lt
      have hold : ∀ {id : DeclId}, id ∈ record.removed → id ≠ g.nextId := by
        rintro id hid rfl
        have hlt := index_lt_of_kind? (hacc.method _ hid)
        rw [hnext] at hlt
        exact Nat.lt_irrefl _ hlt
      constructor
      · intro id hid
        rw [hfits.kind? hg, if_neg (hold hid), hacc.method id hid]
      · intro id hid
        rw [hg.owner?_enlist]
        by_cases hnew : id = g.nextId
        · have hroot : g.nextId ≠ root := (ne_nextId_of_key? hg.size_lt hg.key?_root).symm
          rw [if_pos hnew, hnew]
          simpa [hroot] using fun hin => hold hin rfl
        · rw [size_enlist] at hid
          have hne : id.index ≠ g.size := fun heq =>
            hnew (DeclId.eq_of_index_eq (heq.trans hnext.symm))
          rw [if_neg hnew, hacc.unowned (by omega)]
  | edited hplace => exact hacc.of_sameTree (sameTree_modify fun decl _ => hplace decl)
  | issued => exact hacc.of_sameTree (sameTree_modify fun decl _ => samePlace_mapScope_issue decl)
  | @removed container member howner hkind =>
      constructor
      · intro id hid
        rw [kind?_detach]
        rcases List.mem_cons.mp hid with rfl | hold
        · exact hkind
        · exact hacc.method id hold
      · intro id hid
        rw [size_detach] at hid
        rw [owner?_detach]
        by_cases hmember : id = member
        · simp [hmember]
        · rw [if_neg hmember, hacc.unowned hid]
          simp [hmember]

/-- A merge takes nothing out, and all that it brings in is owned. -/
theorem merge {other : Graph} {plan : Renamings} {log : List Arrival}
    (hacc : Accounted removed g) (hg : Coherent g) (hother : Coherent other)
    (hlog : Log g other plan log h) : Accounted removed h where
  method := by
    intro id hid
    have hkind := hacc.method id hid
    rw [(hlog.key?_old hg (index_lt_of_kind? hkind)).2, hkind]
  unowned := by
    intro id hid
    by_cases hold : id.index < g.size
    · rw [hlog.owner?_old hg hold, hacc.unowned hold]
    · rcases hlog.exists_fresh hg (Nat.le_of_not_lt hold) hid with ⟨a, ha, hfresh, htarget⟩
      have hne := hlog.source_ne_root_of_fresh hother ha hfresh
      rw [hlog.owner?_target hg ha hne htarget]
      have hroot : id ≠ root := by
        rintro rfl
        exact hold (index_lt_of_key? hg.key?_root)
      have hnotRemoved : id ∉ removed := fun hin =>
        hold (index_lt_of_kind? (hacc.method id hin))
      simp [hroot, hnotRemoved]

end Accounted

/-- In a built graph only the root and the methods that were taken out are without an owner. -/
theorem Built.accounted {naming : Naming} {record : Record} {g : Graph}
    (h : Built naming record g) : Accounted record.removed g := by
  induction h with
  | new => exact Accounted.empty
  | request hbuilt hadmitted hrun hsize ih =>
      exact ih.outcome hbuilt.coherent (Request.outcome hbuilt.coherent hadmitted hrun)
  | merge hbuilt hother hrun hsize ih ihOther =>
      rcases hbuilt.exists_log hother hrun hsize with ⟨forest, log, -, hlog, -⟩
      exact ih.merge hbuilt.coherent hother.coherent hlog

/-! ## Reachability -/

/-- The declaration stands in the member list of the container. -/
def Graph.Lists (g : Graph) (container id : DeclId) : Prop :=
  ∃ ids, g.members container = .ok ids ∧ id ∈ ids

/-- The declaration is `above` itself or somewhere below it. -/
def Graph.Within (g : Graph) (above id : DeclId) : Prop :=
  Relation.ReflTransGen g.Lists above id

/-- The declaration is a member of `above`, a member of a member, and so on. -/
def Graph.Below (g : Graph) (above id : DeclId) : Prop :=
  Relation.TransGen g.Lists above id

/-- The declarations that the member lists lead to from the root. -/
inductive Graph.Reachable (g : Graph) : DeclId → Prop
  | root : Reachable g root
  | member {container id : DeclId} {ids : List DeclId} (hcontainer : Reachable g container)
      (hmembers : g.members container = .ok ids) (hid : id ∈ ids) : Reachable g id

namespace Graph.Consistent

variable {g : Graph}

/-- The member list of a container holds what it owns. -/
theorem mem_members (hg : Consistent g) {container id : DeclId} {ids : List DeclId}
    (h : g.members container = .ok ids) : id ∈ ids ↔ g.owner? id = some container := by
  rw [← hg.mem_memberIds, memberIds_of_members h]

/-- Whatever owns something shows its members. -/
theorem exists_members (hg : Consistent g) {container id : DeclId}
    (h : g.owner? id = some container) : ∃ ids, g.members container = .ok ids ∧ id ∈ ids := by
  rcases exists_scope (hg.isSome_key?_of_owner? h) with ⟨scope, hscope, hids, -⟩
  have hmembers : g.members container = .ok scope.members := by
    simp [members, hscope, Except.map]
  exact ⟨scope.members, hmembers, (hg.mem_members hmembers).mpr h⟩

/-- A container lists what it owns. -/
theorem lists_iff (hg : Consistent g) {container id : DeclId} :
    g.Lists container id ↔ g.owner? id = some container := by
  constructor
  · rintro ⟨ids, hids, hid⟩
    exact (hg.mem_members hids).mp hid
  · exact hg.exists_members

/-- Attached declarations are the reachable ones. -/
theorem isAttached_iff (hg : Consistent g) (id : DeclId) :
    g.isAttached id = true ↔ g.Reachable id := by
  constructor
  · intro h
    have hattached := isAttached_iff_owned.mp h
    induction hindex : id.index using Nat.strongRecOn generalizing id with
    | ind index ih =>
        rcases hattached with rfl | ⟨container, howner⟩
        · exact .root
        · have habove := hg.eq_root_or_owned (hg.isSome_key?_of_owner? howner)
          have hlt := hg.owner_lt howner
          rcases hg.exists_members howner with ⟨ids, hids, hmember⟩
          exact .member (ih container.index (by omega) container (isAttached_iff_owned.mpr habove)
            habove rfl) hids hmember
  · intro h
    cases h with
    | root => simp [isAttached]
    | member hcontainer hmembers hid =>
        simp [isAttached, (hg.mem_members hmembers).mp hid]

end Graph.Consistent

/-! ## The owner tree -/

/-- The table of owners and the member lists tell of one tree, and `removed` are the methods that
were taken out of it. -/
structure OwnerTree (removed : List DeclId) (g : Graph) : Prop where
  /-- There is one owner entry for each slot. -/
  size_owners : g.owners.size = g.size
  /-- A listed member is a slot of the graph, and its owner is the container. -/
  listed : ∀ {container id : DeclId} {ids : List DeclId}, g.members container = .ok ids →
    id ∈ ids → id.index < g.size ∧ g.owner? id = some container
  /-- A member is listed in one container only. -/
  listed_unique : ∀ {container container' id : DeclId} {ids ids' : List DeclId},
    g.members container = .ok ids → g.members container' = .ok ids' → id ∈ ids → id ∈ ids' →
    container = container'
  /-- A member is listed only once. -/
  nodup : ∀ {container : DeclId} {ids : List DeclId}, g.members container = .ok ids → ids.Nodup
  /-- A slot with an owner is listed there. -/
  owned : ∀ {container id : DeclId}, g.owner? id = some container →
    ∃ ids, g.members container = .ok ids ∧ id ∈ ids
  /-- An owner is older than what it owns. -/
  owner_lt : ∀ {container id : DeclId}, g.owner? id = some container →
    container.index < id.index
  /-- Member lists are strictly increasing. -/
  increasing : ∀ {container : DeclId} {ids : List DeclId}, g.members container = .ok ids →
    ids.Pairwise fun a b => a.index < b.index
  /-- Packages are owned by packages. -/
  package_owner : ∀ {container id : DeclId}, g.owner? id = some container →
    (g.package? id).isSome → (g.package? container).isSome
  /-- Besides the root only the methods that were taken out are without an owner. -/
  unowned : ∀ {id : DeclId}, id.index < g.size → (g.owner? id = none ↔ id = root ∨ id ∈ removed)
  /-- What was taken out is a method. -/
  removed_method : ∀ id ∈ removed, (g.method? id).isSome
  /-- The attached declarations are those that are reachable from the root. -/
  isAttached_iff : ∀ id, g.isAttached id = true ↔ g.Reachable id

/-- In a consistent graph owners and member lists agree. -/
theorem Graph.Consistent.toOwnerTree {removed : List DeclId} {g : Graph} (hg : Consistent g)
    (hacc : Accounted removed g) : OwnerTree removed g := by
  refine
    { size_owners := hg.size_owners
      listed := ?_
      listed_unique := ?_
      nodup := ?_
      owned := fun howner => hg.exists_members howner
      owner_lt := fun howner => hg.owner_lt howner
      increasing := ?_
      package_owner := ?_
      unowned := fun hid => hacc.unowned hid
      removed_method := ?_
      isAttached_iff := hg.isAttached_iff }
  · intro container id ids hids hid
    have howner := (hg.mem_members hids).mp hid
    exact ⟨hg.index_lt_of_owner? howner, howner⟩
  · intro container container' id ids ids' hids hids' hid hid'
    have howner := (hg.mem_members hids).mp hid
    rw [(hg.mem_members hids').mp hid'] at howner
    exact (Option.some.inj howner).symm
  · intro container ids hids
    rw [← memberIds_of_members hids]
    exact hg.nodup_memberIds container
  · intro container ids hids
    rw [← memberIds_of_members hids]
    exact hg.sorted container
  · intro container id howner hpackage
    rw [isSome_package?_iff] at hpackage ⊢
    exact hg.package_owner howner hpackage
  · intro id hid
    rw [isSome_method?_iff]
    exact hacc.method id hid

/-- Owners and member lists agree in every graph that is built. -/
theorem Built.ownerTree {naming : Naming} {record : Record} {g : Graph}
    (h : Built naming record g) : OwnerTree record.removed g :=
  h.coherent.toConsistent.toOwnerTree h.accounted

/-- A class with two methods that are alike, one of which was taken out. -/
theorem ownerTree_of_class : ∃ record g, Built issuedName record g ∧ g.size = 5 ∧
    record.removed = [⟨4⟩] ∧ OwnerTree record.removed g := by
  have hbuilt := built_played [.package root ⟨"p"⟩, .klass ⟨1⟩ ⟨"C"⟩, .method ⟨2⟩ ⟨"m"⟩,
    .method ⟨2⟩ ⟨"m"⟩, .dropDuplicate ⟨2⟩ ⟨4⟩] rfl
  exact ⟨_, _, hbuilt, rfl, rfl, Built.ownerTree hbuilt⟩

end DeclGraph
