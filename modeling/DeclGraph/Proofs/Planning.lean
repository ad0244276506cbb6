import DeclGraph.Proofs.Reading
import DeclGraph.Proofs.Requests

/-!
# What a merge plans

Before anything is written a merge settles where every container of the incoming
graph is to go.  Each container has a site: the container of the receiving graph
that it meets, found from owner to owner by kind and merged name.  The renamings
that are planned are read off the sites, one for each container whose name is
shifted.

Main results:

- Theorem `Name.merged_eq_iff`: which names come together when they are shifted.
- Theorem `Name.merged_injective`: issued names stay different when they are
  shifted.
- Theorem `Forest.renamings_eq`: the plan holds the renamings of what is read, in
  the order in which it is read.
- Theorem `Renamings.key?_rename`: under the plan every container gets its merged
  key.
- Theorem `Graph.eq_of_site_eq`: different containers have different sites.
-/

namespace DeclGraph

/-! ## Merged names -/

/-- The name with which a container goes into one that has issued `issued` names. -/
def Name.merged (issued : UInt32) (kind : Kind) (name : Name) : Name :=
  (name.shifted? issued kind).getD name

namespace Name

@[simp]
theorem merged_zero (kind : Kind) (name : Name) : merged 0 kind name = name := by
  simp [merged, shifted?]

@[simp]
theorem merged_package (issued : UInt32) (name : Name) : merged issued .package name = name := by
  simp [merged, shifted?]

/-- The name of an anonymous class or object is shifted. -/
theorem merged_anonymous {issued : UInt32} {kind : Kind} {name : Name} {k : UInt32}
    (hissued : issued ≠ 0) (hkind : kind ≠ .package) (hname : name.anonymousIndex? = some k) :
    merged issued kind name = anonymous (shiftIndex k issued) := by
  simp [merged, shifted?, hissued, hkind, hname]

/-- A name is shifted if it is that of an anonymous class or object and names were issued. -/
theorem shifted?_eq_some_iff {issued : UInt32} {kind : Kind} {name new : Name} :
    name.shifted? issued kind = some new ↔ issued ≠ 0 ∧ kind ≠ .package ∧
      ∃ k, name.anonymousIndex? = some k ∧ new = anonymous (shiftIndex k issued) := by
  by_cases hfixed : issued = 0 ∨ kind = .package
  · rcases hfixed with rfl | rfl <;> simp [shifted?]
  · rcases not_or.mp hfixed with ⟨hissued, hkind⟩
    cases hname : name.anonymousIndex? <;> simp [shifted?, hissued, hkind, hname, eq_comm]

/-- A name without a number stays what it is. -/
theorem merged_of_anonymousIndex?_eq_none {name : Name} (h : name.anonymousIndex? = none)
    (issued : UInt32) (kind : Kind) : merged issued kind name = name := by
  simp [merged, shifted?, h]

/-- Anonymous names with different numbers are different. -/
theorem anonymous_injective {k l : UInt32} (h : anonymous k = anonymous l) : k = l := by
  have hindex := congrArg anonymousIndex? h
  simpa using hindex

/-- A shift that 32 bits can count is an addition. -/
theorem shiftIndex_eq_add {k n : UInt32} (h : k.toNat + n.toNat < UInt32.size) :
    shiftIndex k n = k + n := by
  apply UInt32.toNat_inj.mp
  rw [toNat_shiftIndex, UInt32.toNat_add, Nat.mod_eq_of_lt h]
  omega

theorem shiftIndex_zero (k : UInt32) : shiftIndex k 0 = k := by
  have hlast := k.toNat_lt_size
  rw [shiftIndex_eq_add (by simpa using hlast), UInt32.add_zero]

theorem zero_shiftIndex (n : UInt32) : shiftIndex 0 n = n := by
  have hlast := n.toNat_lt_size
  rw [shiftIndex_eq_add (by simpa using hlast), UInt32.zero_add]

/-- The number of an issued name is shifted, be it by no more than nothing. -/
theorem merged_issued_name {kind : Kind} (hkind : kind ≠ .package) (issued k : UInt32) :
    merged issued kind (anonymous k) = anonymous (shiftIndex k issued) := by
  by_cases hissued : issued = 0
  · rw [hissued, merged_zero, shiftIndex_zero]
  · exact merged_anonymous hissued hkind (anonymousIndex?_anonymous k)

/-- Two numbers are shifted to one if they are one, or if both run out of 32 bits. -/
theorem shiftIndex_eq_iff {k l n : UInt32} : shiftIndex k n = shiftIndex l n ↔
    k = l ∨ UInt32.size ≤ k.toNat + n.toNat + 1 ∧ UInt32.size ≤ l.toNat + n.toNat + 1 := by
  rw [← UInt32.toNat_inj, toNat_shiftIndex, toNat_shiftIndex, ← UInt32.toNat_inj]
  omega

/-- Two names clash under a shift by `n` if both have numbers and these are shifted to one. -/
def Clash (n : UInt32) (a b : Name) : Prop :=
  ∃ k l, a.anonymousIndex? = some k ∧ b.anonymousIndex? = some l ∧
    (k = l ∨ UInt32.size ≤ k.toNat + n.toNat + 1 ∧ UInt32.size ≤ l.toNat + n.toNat + 1)

/-- Merged names are the same for equal names, and for names of classes or objects that clash. -/
theorem merged_eq_iff {n : UInt32} {kind : Kind} {a b : Name} :
    merged n kind a = merged n kind b ↔ a = b ∨ n ≠ 0 ∧ kind ≠ .package ∧ Clash n a b := by
  by_cases hfixed : n = 0 ∨ kind = .package
  · rcases hfixed with rfl | rfl <;> simp
  · rcases not_or.mp hfixed with ⟨hn, hkind⟩
    -- A name without a number is no anonymous name, and so it is not what a shift leads to.
    have hapart : ∀ {x y : Name} {k : UInt32}, x.anonymousIndex? = none →
        y.anonymousIndex? = some k → merged n kind x ≠ merged n kind y ∧ x ≠ y := by
      intro x y k hx hy
      rw [merged_of_anonymousIndex?_eq_none hx, merged_anonymous hn hkind hy]
      constructor <;> rintro rfl
      · simp at hx
      · rw [hx] at hy
        contradiction
    cases ha : a.anonymousIndex? with
    | none =>
        cases hb : b.anonymousIndex? with
        | none =>
            rw [merged_of_anonymousIndex?_eq_none ha, merged_of_anonymousIndex?_eq_none hb]
            simp [Clash, ha]
        | some l => simp [Clash, ha, hapart ha hb]
    | some k =>
        cases hb : b.anonymousIndex? with
        | none => simp [Clash, hb, (hapart hb ha).1.symm, (hapart hb ha).2.symm]
        | some l =>
            rw [merged_anonymous hn hkind ha, merged_anonymous hn hkind hb]
            simp only [Clash, ha, hb, hn, hkind, ne_eq, not_false_eq_true, true_and,
              Option.some.injEq]
            constructor
            · intro h
              exact Or.inr ⟨k, l, rfl, rfl, shiftIndex_eq_iff.mp (anonymous_injective h)⟩
            · rintro (rfl | ⟨_, _, rfl, rfl, hclash⟩)
              · rw [Option.some.inj (ha.symm.trans hb)]
              · rw [shiftIndex_eq_iff.mpr hclash]

/-- A class or object name with a number is the name that was issued with that number, and it can
be shifted by `n` without running out of numbers. -/
def Shiftable (n : UInt32) (kind : Kind) (name : Name) : Prop :=
  ∀ k, kind ≠ .package → name.anonymousIndex? = some k →
    name = anonymous k ∧ k.toNat + n.toNat < UInt32.size

/-- Names that can be shifted stay different. -/
theorem merged_injective {n : UInt32} {kind : Kind} {a b : Name} (ha : Shiftable n kind a)
    (hb : Shiftable n kind b) (h : merged n kind a = merged n kind b) : a = b := by
  rcases merged_eq_iff.mp h with hsame | ⟨-, hkind, k, l, haIndex, hbIndex, hclash⟩
  · exact hsame
  · rcases ha k hkind haIndex with ⟨rfl, hk⟩
    rcases hb l hkind hbIndex with ⟨rfl, hl⟩
    have hkl : k = l := by
      rw [← UInt32.toNat_inj] at hclash ⊢
      omega
    rw [hkl]

end Name

namespace Graph

/-! ## Sites -/

/-- One step down in `g`, to where a member of `other` is to go. -/
def siteBelow (g other : Graph) (site : Option DeclId) (id : DeclId) : Option DeclId :=
  site.bind fun container =>
    (other.key? id).bind fun key =>
      g.lookup container (key.1, Name.merged (g.issued container) key.1 key.2)

/-- The container of `g` that a container of `other` meets, if there is one. -/
def site (g other : Graph) (id : DeclId) : Option DeclId :=
  (other.lineage id).foldl (siteBelow g other) (some root)

/-- How many names the site of a container has issued. -/
def offset (g other : Graph) (container : DeclId) : UInt32 :=
  (g.site other container).elim 0 g.issued

/-- The kind and name with which a container of `other` goes into `g`. -/
def mergedKey? (g other : Graph) (id : DeclId) : Option Key :=
  (other.key? id).map fun key =>
    (key.1, Name.merged ((other.owner? id).elim 0 (g.offset other)) key.1 key.2)

/-- The path that a declaration of `other` gets in `g`, made of merged names. -/
def mergedPath (g other : Graph) (id : DeclId) : Path :=
  ⟨(other.lineage id).filterMap fun entry => (g.mergedKey? other entry).map Prod.snd⟩

/-- The renaming of a container of `other`, if its name is shifted. -/
def renaming? (g other : Graph) (id : DeclId) : Option Renaming :=
  (other.owner? id).bind fun owner =>
    (other.key? id).bind fun key =>
      (key.2.shifted? (g.offset other owner) key.1).map fun name =>
        ⟨id, name, other.path id, g.mergedPath other id⟩

@[simp]
theorem site_root (g other : Graph) : g.site other root = some root := by
  simp [site]

@[simp]
theorem mergedPath_root (g other : Graph) : g.mergedPath other root = Path.root := by
  simp [mergedPath, Path.root]

theorem source_of_renaming? {g other : Graph} {id : DeclId} {entry : Renaming}
    (h : g.renaming? other id = some entry) : entry.source = id := by
  rcases Option.bind_eq_some_iff.mp h with ⟨owner, -, h⟩
  rcases Option.bind_eq_some_iff.mp h with ⟨key, -, h⟩
  rcases Option.map_eq_some_iff.mp h with ⟨name, -, rfl⟩
  rfl

section Below

variable {g other : Graph} (hother : Coherent other) {container id : DeclId} {key : Key}
  (howner : other.owner? id = some container)

include howner in
theorem mergedKey?_of_owner? (hkey : other.key? id = some key) :
    g.mergedKey? other id = some (key.1, Name.merged (g.offset other container) key.1 key.2) := by
  simp [mergedKey?, howner, hkey]

include hother howner

/-- The site of a member is found below the site of its container. -/
theorem site_of_owner? : g.site other id =
    (g.site other container).bind fun above => (g.mergedKey? other id).bind (g.lookup above) := by
  rw [site, hother.lineage_of_owner? howner, List.foldl_append, List.foldl_cons, List.foldl_nil,
    ← site]
  cases hsite : g.site other container with
  | none => rfl
  | some above =>
      cases hkey : other.key? id <;>
        simp [siteBelow, mergedKey?, offset, howner, hsite, hkey]

/-- The path of a container is that of its owner and its own name. -/
theorem path_of_owner? (hkey : other.key? id = some key) :
    other.path id = (other.path container).child key.2 := by
  have hname : (other.get? id).bind Decl.name? = some key.2 := by
    rcases Option.bind_eq_some_iff.mp hkey with ⟨decl, hdecl, hdeclKey⟩
    rw [hdecl]
    cases decl <;> simp [Decl.key?] at hdeclKey <;> subst hdeclKey <;> rfl
  simp [path, Path.child, hother.lineage_of_owner? howner, hname]

/-- The merged path of a container is that of its owner and its own merged name. -/
theorem mergedPath_of_owner? (hkey : other.key? id = some key) :
    g.mergedPath other id = (g.mergedPath other container).child
      (Name.merged (g.offset other container) key.1 key.2) := by
  simp [mergedPath, Path.child, hother.lineage_of_owner? howner,
    mergedKey?_of_owner? howner hkey]

end Below

/-- A site is a container, and it is that of the root or below the site of the owner. -/
theorem site_cases {g other : Graph} (hg : Coherent g) (hother : Coherent other) {id e : DeclId}
    (h : g.site other id = some e) :
    (id = root ∧ e = root) ∨
      ∃ container above key, other.owner? id = some container ∧
        g.site other container = some above ∧ g.mergedKey? other id = some key ∧
        g.owner? e = some above ∧ g.key? e = some key := by
  by_cases hroot : id = root
  · subst hroot
    rw [site_root] at h
    exact Or.inl ⟨rfl, (Option.some.inj h).symm⟩
  · right
    cases howner : other.owner? id with
    | none =>
        rw [site, lineage_of_unowned hroot howner] at h
        rcases Option.bind_eq_some_iff.mp h with ⟨key, hkey, -⟩
        rcases hother.eq_root_or_owned (by rw [hkey]; rfl) with hisRoot | ⟨container, hcontainer⟩
        · exact absurd hisRoot hroot
        · rw [howner] at hcontainer
          contradiction
    | some container =>
        rw [site_of_owner? hother howner] at h
        rcases Option.bind_eq_some_iff.mp h with ⟨above, habove, h⟩
        rcases Option.bind_eq_some_iff.mp h with ⟨key, hkey, h⟩
        rcases hg.lookup_eq_some.mp h with ⟨heOwner, heKey⟩
        exact ⟨container, above, key, rfl, habove, hkey, heOwner, heKey⟩

/-- A site is a container of the graph. -/
theorem isSome_key?_of_site {g other : Graph} (hg : Coherent g) (hother : Coherent other)
    {id e : DeclId} (h : g.site other id = some e) : (g.key? e).isSome := by
  rcases site_cases hg hother h with ⟨-, rfl⟩ | ⟨_, _, key, -, -, -, -, hkey⟩
  · exact hg.isSome_key?_root
  · rw [hkey, Option.isSome_some]

/-- The members of a container go in under different keys. -/
def KeysApart (g other : Graph) : Prop :=
  ∀ {container a b : DeclId} {key : Key}, other.owner? a = some container →
    other.owner? b = some container → g.mergedKey? other a = some key →
    g.mergedKey? other b = some key → a = b

/-- Different containers have different sites. -/
theorem eq_of_site_eq {g other : Graph} (hg : Coherent g) (hother : Coherent other)
    (hapart : KeysApart g other) {a b e : DeclId} (ha : g.site other a = some e)
    (hb : g.site other b = some e) : a = b := by
  induction hindex : a.index using Nat.strongRecOn generalizing a b e with
  | ind index ih =>
      rcases site_cases hg hother ha with
        ⟨haRoot, heRoot⟩ | ⟨c, above, key, haOwner, hc, haKey, heOwner, heKey⟩
      · rcases site_cases hg hother hb with ⟨hbRoot, -⟩ | ⟨_, _, _, -, -, -, heOwner, -⟩
        · rw [haRoot, hbRoot]
        · rw [heRoot, hg.owner?_root] at heOwner
          contradiction
      · rcases site_cases hg hother hb with
          ⟨-, heRoot⟩ | ⟨c', above', key', hbOwner, hc', hbKey, heOwner', heKey'⟩
        · rw [heRoot, hg.owner?_root] at heOwner
          contradiction
        · obtain rfl : above = above' := Option.some.inj (heOwner.symm.trans heOwner')
          obtain rfl : key = key' := Option.some.inj (heKey.symm.trans heKey')
          have hlt := hother.owner_lt haOwner
          obtain rfl := ih c.index (by omega) hc hc' rfl
          exact hapart haOwner hbOwner haKey hbKey

/-! ## The plan -/

/-- The scope at a site shows what the site does. -/
private theorem scope_at_site {g : Graph} {site : Option DeclId} {into : Option Scope}
    (h : g.scopeOf site = .ok into) :
    into.elim 0 Scope.issued = site.elim 0 g.issued ∧
      ∀ kind name, (into.bind fun scope => scope.find? kind name) =
        site.bind fun e => g.lookup e (kind, name) := by
  cases site with
  | none =>
      obtain rfl : none = into := Except.ok.inj h
      exact ⟨rfl, fun _ _ => rfl⟩
  | some e =>
      cases hscope : g.scope e with
      | error violation => simp [scopeOf, hscope, Except.map] at h
      | ok scope =>
          obtain rfl : some scope = into := by simpa [scopeOf, hscope, Except.map] using h
          rcases exists_scope (isSome_key?_of_scope hscope) with ⟨found, hfound, -, hissued, hfind⟩
          obtain rfl : scope = found := Except.ok.inj (hscope.symm.trans hfound)
          exact ⟨hissued.symm, hfind⟩

/-- Every site shows its scope. -/
theorem exists_scopeOf_site {g other : Graph} (hg : Coherent g) (hother : Coherent other)
    (id : DeclId) : ∃ into, g.scopeOf (g.site other id) = .ok into := by
  cases hsite : g.site other id with
  | none => exact ⟨none, rfl⟩
  | some e =>
      rcases exists_scope (isSome_key?_of_site hg hother hsite) with ⟨scope, hscope, -⟩
      exact ⟨some scope, by simp [scopeOf, hscope, Except.map]⟩

end Graph

open DeclGraph.Graph

/-- The plan holds the renamings of whatever is read, in the order in which it is read. -/
theorem Forest.renamings_eq {g other : Graph} (hg : Coherent g) (hother : Coherent other)
    {container : DeclId} {ids : List DeclId} {forest : Forest} {into : Option Scope}
    (hreads : Reads other ids forest) (howner : ∀ id ∈ ids, other.owner? id = some container)
    (hinto : g.scopeOf (g.site other container) = .ok into) :
    forest.renamings g into (other.path container) (g.mergedPath other container) =
      .ok (forest.ids.filterMap (g.renaming? other)) := by
  induction hreads generalizing container into with
  | nil => rfl
  | @cons id siblings decl below rest hdecl hbelow hrest ihBelow ihRest =>
      have hid := howner id List.mem_cons_self
      have hfurther := ihRest (fun sibling hsibling =>
        howner sibling (List.mem_cons_of_mem _ hsibling)) hinto
      cases hdeclKey : decl.key? with
      | none =>
          have hkey : other.key? id = none := by simp [key?, hdecl, hdeclKey]
          have hmembers : other.memberIds id = [] := by
            simp [memberIds, hdecl, Decl.memberIds_of_key?_eq_none hdeclKey]
          rw [hmembers] at hbelow
          cases hbelow
          rw [Forest.renamings, hdeclKey]
          simp [hfurther, Forest.ids, renaming?, hkey]
      | some key =>
          have hkey : other.key? id = some key := by simp [key?, hdecl, hdeclKey]
          rcases exists_scopeOf_site hg hother id with ⟨inner, hinner⟩
          have hdeeper := ihBelow (fun member hmember => hother.mem_memberIds.mp hmember) hinner
          rcases scope_at_site hinto with ⟨hissued, hfind⟩
          change into.elim 0 Scope.issued = g.offset other container at hissued
          rw [path_of_owner? hother hid hkey, mergedPath_of_owner? hother hid hkey] at hdeeper
          have hsite : (into.bind fun scope => scope.find? key.1
              (Name.merged (g.offset other container) key.1 key.2)) = g.site other id := by
            rw [hfind, site_of_owner? hother hid, mergedKey?_of_owner? hid hkey]
            rfl
          have hown : (key.2.shifted? (g.offset other container) key.1).map (fun new =>
              Renaming.mk id new ((other.path container).child key.2)
                ((g.mergedPath other container).child new)) = g.renaming? other id := by
            cases hshifted : key.2.shifted? (g.offset other container) key.1 with
            | none => simp [renaming?, hid, hkey, hshifted]
            | some new =>
                simp [renaming?, hid, hkey, hshifted, path_of_owner? hother hid hkey,
                  mergedPath_of_owner? hother hid hkey, Name.merged]
          have hmerged : (key.2.shifted? (g.offset other container) key.1).getD key.2 =
              Name.merged (g.offset other container) key.1 key.2 := rfl
          rw [Forest.renamings, hdeclKey]
          simp only [hissued, hmerged, hsite, hinner, hown, bind, Except.bind, hdeeper, hfurther,
            pure, Except.pure]
          cases hrenaming : g.renaming? other id <;>
            simp [Forest.ids, hrenaming, List.filterMap_append]

namespace Renamings

/-- A container is renamed to a container, and anything else to no container. -/
theorem isSome_key?_rename (plan : Renamings) (id : DeclId) (decl : Decl) :
    (plan.rename id decl).key?.isSome = decl.key?.isSome := by
  rw [Decl.isSome_key?, Decl.isSome_key?, Decl.isContainer, kind_rename, Decl.isContainer]

theorem key?_rename_eq_none_iff {plan : Renamings} {id : DeclId} {decl : Decl} :
    (plan.rename id decl).key? = none ↔ decl.key? = none := by
  rw [← Option.not_isSome_iff_eq_none, isSome_key?_rename, Option.not_isSome_iff_eq_none]

variable {g other : Graph} {ids : List DeclId} {id : DeclId} {key : Key}

/-- Under the plan a container gets its merged name. -/
theorem nameOf_filterMap {container : DeclId} (hid : id ∈ ids)
    (howner : other.owner? id = some container) (hkey : other.key? id = some key) :
    nameOf (ids.filterMap (g.renaming? other)) id key.2 =
      Name.merged (g.offset other container) key.1 key.2 := by
  have hrenaming : g.renaming? other id =
      (key.2.shifted? (g.offset other container) key.1).map fun name =>
        ⟨id, name, other.path id, g.mergedPath other id⟩ := by
    simp [renaming?, howner, hkey]
  unfold nameOf
  cases hfind : (ids.filterMap (g.renaming? other)).find? fun entry => entry.source = id with
  | none =>
      cases hshifted : key.2.shifted? (g.offset other container) key.1 with
      | none => simp [Name.merged, hshifted]
      | some new =>
          rw [hshifted] at hrenaming
          have hentry := List.mem_filterMap.mpr ⟨id, hid, hrenaming⟩
          have hno := List.find?_eq_none.mp hfind _ hentry
          simp at hno
  | some entry =>
      rcases List.mem_filterMap.mp (List.mem_of_find?_eq_some hfind) with ⟨source, -, hentry⟩
      have hsource : source = id := by
        rw [← source_of_renaming? hentry]
        simpa using List.find?_some hfind
      rw [hsource, hrenaming] at hentry
      rcases Option.map_eq_some_iff.mp hentry with ⟨new, hnew, rfl⟩
      simp [Name.merged, hnew]

/-- Under the plan a declaration gets its merged key. -/
theorem key?_rename {container : DeclId} {decl : Decl} (hid : id ∈ ids)
    (howner : other.owner? id = some container) (hdecl : other.get? id = some decl) :
    (rename (ids.filterMap (g.renaming? other)) id decl).key? = g.mergedKey? other id := by
  cases hdeclKey : decl.key? with
  | none =>
      have hkey : other.key? id = none := by simp [key?, hdecl, hdeclKey]
      rw [mergedKey?, hkey]
      cases decl <;> first | rfl | simp [Decl.key?] at hdeclKey
  | some key =>
      have hkey : other.key? id = some key := by simp [key?, hdecl, hdeclKey]
      have hname := nameOf_filterMap (g := g) hid howner hkey
      rw [mergedKey?, hkey, howner]
      cases decl <;> simp only [Decl.key?, reduceCtorEq, Option.some.injEq] at hdeclKey <;>
        subst hdeclKey
      · simp [rename, Decl.mapTypes, Decl.key?]
      · simp [rename, Decl.key?, hname]
      · simp [rename, Decl.key?, hname]

end Renamings

end DeclGraph
