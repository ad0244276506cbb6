import Mathlib.Data.List.Basic
import Mathlib.Data.Nat.ModEq
import DeclGraph.Proofs.Adjoining
import DeclGraph.Proofs.FreshNames

/-!
# Graphs that grow alongside

A graph that is built on top of another one has its new declarations in the slots
after those that were there.  So it holds what the same requests build by
themselves, with the numbers of the slots shifted: every new declaration is there,
down to the ids that it mentions, and the root lists the new packages after the old
ones.

Main results:

- Theorem `Graph.Alongside.enlist`: a member is enlisted alongside.
- Theorem `Graph.Alongside.modify`: a declaration is modified alongside.
- Theorem `Graph.Alongside.beside`: what grows alongside stands beside what was there.
-/

namespace DeclGraph

/-! ## Changing the ids in a declaration -/

/-- A scope whose members got other ids. -/
def Scope.renumber (f : DeclId → DeclId) (scope : Scope) : Scope :=
  { scope with
    members := scope.members.map f
    index := scope.index.map fun entry => (entry.1, f entry.2) }

/-- A class whose members and whose companion got other ids. -/
def ClassDecl.renumber (f : DeclId → DeclId) (k : ClassDecl) : ClassDecl :=
  { k with scope := k.scope.renumber f, companion := k.companion.map f }

/-- An object whose members and whose companion got other ids. -/
def ObjectDecl.renumber (f : DeclId → DeclId) (o : ObjectDecl) : ObjectDecl :=
  { o with scope := o.scope.renumber f, companion := o.companion.map f }

namespace Decl

/-- A declaration that mentions other ids in the place of its own. -/
def renumber (f : DeclId → DeclId) : Decl → Decl
  | package p => package { p with scope := p.scope.renumber f }
  | klass k => klass (k.renumber f)
  | object o => object (o.renumber f)
  | decl => decl

variable (f : DeclId → DeclId)

@[simp]
theorem header_renumber (decl : Decl) : (decl.renumber f).header = decl.header := by
  cases decl <;> rfl

@[simp]
theorem key?_renumber (decl : Decl) : (decl.renumber f).key? = decl.key? := by
  cases decl <;> rfl

@[simp]
theorem method?_renumber (decl : Decl) : (decl.renumber f).method? = decl.method? := by
  cases decl <;> rfl

theorem memberIds_renumber (decl : Decl) :
    (decl.renumber f).memberIds = decl.memberIds.map f := by
  cases decl <;> rfl

theorem companion?_renumber (decl : Decl) :
    (decl.renumber f).companion? = decl.companion?.map f := by
  cases decl <;> rfl

/-- What is no container mentions no ids. -/
theorem renumber_of_key?_eq_none {decl : Decl} (h : decl.key? = none) : decl.renumber f = decl := by
  cases decl <;> first | rfl | simp [key?] at h

theorem renumber_withCompanion (id : DeclId) (decl : Decl) :
    (decl.withCompanion id).renumber f = (decl.renumber f).withCompanion (f id) := by
  cases decl <;> rfl

/-- What changes a scope changes one with other ids alike. -/
theorem renumber_mapScope {change change' : Scope → Scope}
    (h : ∀ scope, (change scope).renumber f = change' (scope.renumber f)) (decl : Decl) :
    (decl.mapScope change).renumber f = (decl.renumber f).mapScope change' := by
  cases decl <;> simp [mapScope, renumber, ClassDecl.renumber, ObjectDecl.renumber, h]

end Decl

theorem Scope.renumber_add (f : DeclId → DeclId) (key : Option Key) (id : DeclId) (scope : Scope) :
    (scope.add key id).renumber f = (scope.renumber f).add key (f id) := by
  cases key <;> simp [Scope.renumber, Scope.add]

theorem Scope.renumber_issue (f : DeclId → DeclId) (scope : Scope) :
    scope.issue.renumber f = (scope.renumber f).issue :=
  rfl

theorem Scope.renumber_drop {f : DeclId → DeclId} (hf : Function.Injective f) (id : DeclId)
    (scope : Scope) : (scope.drop id).renumber f = (scope.renumber f).drop (f id) := by
  simp [Scope.renumber, Scope.drop, List.map_erase hf]

namespace Graph

/-! ## Slots on top of a graph -/

/-- The slot that a declaration gets on top of a graph: as many slots further on as there are beside
the root. The root stays where it is. Beyond the last slot that an id can stand for, the count goes
on after the root. -/
def onTop (base : Graph) (id : DeclId) : DeclId :=
  if id = root then root
  else DeclId.ofIndex (1 + (id.index - 1 + (base.size - 1)) % (UInt32.size - 1))

section OnTop

variable {base : Graph}

@[simp]
theorem onTop_root (base : Graph) : onTop base root = root :=
  if_pos rfl

theorem index_pos {id : DeclId} (h : id ≠ root) : 0 < id.index :=
  Nat.pos_of_ne_zero fun hzero => h (DeclId.eq_of_index_eq hzero)

private theorem index_onTop_of_ne {id : DeclId} (h : id ≠ root) :
    (onTop base id).index = 1 + (id.index - 1 + (base.size - 1)) % (UInt32.size - 1) := by
  have hlt : 1 + (id.index - 1 + (base.size - 1)) % (UInt32.size - 1) < UInt32.size := by
    have hmod := Nat.mod_lt (id.index - 1 + (base.size - 1)) (show 0 < UInt32.size - 1 by decide)
    omega
  rw [onTop, if_neg h, DeclId.index_ofIndex, Nat.mod_eq_of_lt hlt]

theorem index_onTop {id : DeclId} (h : id ≠ root)
    (hfits : id.index + (base.size - 1) < UInt32.size) :
    (onTop base id).index = id.index + (base.size - 1) := by
  have hpos := index_pos h
  rw [index_onTop_of_ne h, Nat.mod_eq_of_lt (by omega)]
  omega

theorem onTop_ne_root {id : DeclId} (h : id ≠ root) : onTop base id ≠ root := by
  intro hroot
  have hindex : (onTop base id).index = _ := index_onTop_of_ne h
  rw [hroot] at hindex
  have hzero : root.index = 0 := rfl
  omega

/-- Different declarations get different slots. -/
theorem onTop_injective (base : Graph) : Function.Injective (onTop base) := by
  intro a b hsame
  by_cases ha : a = root <;> by_cases hb : b = root
  · rw [ha, hb]
  · rw [ha, onTop_root] at hsame
    exact absurd hsame.symm (onTop_ne_root hb)
  · rw [hb, onTop_root] at hsame
    exact absurd hsame (onTop_ne_root ha)
  · have hindex := congrArg DeclId.index hsame
    rw [index_onTop_of_ne ha, index_onTop_of_ne hb] at hindex
    have haPos := index_pos ha
    have hbPos := index_pos hb
    have haLt : a.index < UInt32.size := a.val.toNat_lt_size
    have hbLt : b.index < UInt32.size := b.val.toNat_lt_size
    have hcancel : (a.index - 1) % (UInt32.size - 1) = (b.index - 1) % (UInt32.size - 1) :=
      Nat.ModEq.add_right_cancel' (base.size - 1) (Nat.add_left_cancel hindex)
    rw [Nat.mod_eq_of_lt (by omega), Nat.mod_eq_of_lt (by omega)] at hcancel
    apply DeclId.eq_of_index_eq
    omega

end OnTop

/-! ## What grows alongside -/

/-- The graph `h` is `base` with what is in `g` built on top of it. -/
structure Alongside (base g h : Graph) : Prop where
  /-- The new slots come after those that were there. -/
  size : h.size = g.size + (base.size - 1)
  /-- The root stays what it was. -/
  header_root : h.header? root = base.header? root
  /-- The root lists what is new after what was there. -/
  members_root : h.memberIds root = base.memberIds root ++ (g.memberIds root).map (onTop base)
  /-- What was there stays as it was. -/
  old : ∀ {id}, id ≠ root → id.index < base.size → h.get? id = base.get? id
  /-- What is new is there with other ids. -/
  new : ∀ {d}, d ≠ root → d.index < g.size →
    h.get? (onTop base d) = (g.get? d).map (Decl.renumber (onTop base))

/-- What a slot holds after a member that fits was enlisted. -/
theorem Fits.get?_enlist {g : Graph} {container : DeclId} {decl : Decl}
    (hfits : Fits g container decl) (hg : Coherent g) (id : DeclId) :
    (g.enlist container decl).get? id =
      if id = g.nextId then some decl
      else (g.get? id).map fun old =>
        let grown := if id = container then old.mapScope (Scope.add · decl.key? g.nextId) else old
        if decl.companion? = some id then grown.withCompanion g.nextId else grown := by
  obtain ⟨key, hkey⟩ := Option.isSome_iff_exists.mp hfits.isContainer
  apply Graph.get?_enlist hg.size_lt (index_lt_of_key? hkey)
  intro other hother
  obtain ⟨otherKey, -, hotherKey, -⟩ := hfits.exists_partner hg other hother
  exact index_lt_of_key? hotherKey

namespace Alongside

variable {base g h : Graph}

/-- Nothing is built on top of the graph yet. -/
theorem start (hbase : Coherent base) : Alongside base Graph.empty base where
  size := by
    have hpos := index_lt_of_key? hbase.key?_root
    have hsize : Graph.empty.size = 1 := rfl
    omega
  header_root := rfl
  members_root := by rw [memberIds_empty, List.map_nil, List.append_nil]
  old := fun _ _ => rfl
  new := by
    intro d hd hlt
    have hpos := index_pos hd
    have hsize : Graph.empty.size = 1 := rfl
    omega

variable (halong : Alongside base g h)

include halong

/-! ### Looking at what is new -/

section New

variable {d : DeclId} (hd : d ≠ root) (hlt : d.index < g.size)

include hd hlt

theorem header?_new : h.header? (onTop base d) = g.header? d := by
  rw [header?, halong.new hd hlt, header?, Option.map_map]
  congr 1
  funext decl
  exact decl.header_renumber _

theorem key?_new : h.key? (onTop base d) = g.key? d := by
  rw [key?_eq_header?, halong.header?_new hd hlt, key?_eq_header?]

theorem issued_new : h.issued (onTop base d) = g.issued d := by
  rw [issued_eq_header?, halong.header?_new hd hlt, issued_eq_header?]

theorem memberIds_new : h.memberIds (onTop base d) = (g.memberIds d).map (onTop base) := by
  rw [memberIds, halong.new hd hlt, memberIds]
  cases g.get? d with
  | none => rfl
  | some decl => exact decl.memberIds_renumber _

theorem method?_new : h.method? (onTop base d) = g.method? d := by
  rw [method?, halong.new hd hlt, method?]
  cases g.get? d with
  | none => rfl
  | some decl => exact decl.method?_renumber _

/-- What is new comes after what was there. -/
theorem size_le_onTop (hh : Coherent h) : base.size ≤ (onTop base d).index := by
  have hpos := index_pos hd
  have hsize := halong.size
  have hbound := hh.size_lt
  rw [index_onTop hd (by omega)]
  omega

end New

/-- The slots that are filled next correspond to each other. -/
theorem onTop_nextId (hg : Coherent g) (hh : Coherent h) : onTop base g.nextId = h.nextId := by
  have hne := (ne_nextId_of_key? hg.size_lt hg.key?_root).symm
  have hsize := halong.size
  have hbound := hh.size_lt
  have hnext := index_nextId hg.size_lt
  apply DeclId.eq_of_index_eq
  rw [index_onTop hne (by omega), hnext, index_nextId hh.size_lt, hsize]

/-- What is new stands beside what was there. -/
theorem beside (hbase : Coherent base) (hg : Coherent g)
    (hapart : ∀ key, (g.lookup root key).isSome → base.lookup root key = none) :
    Beside id base g h (onTop base) where
  apart := hapart
  header_root := halong.header_root
  members_root := halong.members_root
  old := by
    intro id c howner
    have hne := hbase.ne_root_of_owner? howner
    have hsame := halong.old hne (hbase.index_lt_of_owner? howner)
    exact ⟨by rw [header?, hsame, header?], by rw [memberIds, hsame, memberIds]⟩
  new := by
    intro d c howner
    have hne := hg.ne_root_of_owner? howner
    have hlt := hg.index_lt_of_owner? howner
    exact ⟨by rw [halong.header?_new hne hlt, Option.map_id, id_eq], halong.memberIds_new hne hlt⟩

/-! ### Growing -/

/-- A member is enlisted alongside. -/
theorem enlist (hg : Coherent g) (hh : Coherent h) {c : DeclId} {decl : Decl}
    (hfits : Fits g c decl) (hfitsH : Fits h (onTop base c) (decl.renumber (onTop base))) :
    Alongside base (g.enlist c decl)
      (h.enlist (onTop base c) (decl.renumber (onTop base))) where
  size := by
    have hsize := halong.size
    rw [size_enlist, size_enlist]
    omega
  header_root := by
    rw [hfitsH.header? hh, if_neg (ne_nextId_of_key? hh.size_lt hh.key?_root), halong.header_root]
  members_root := by
    rw [hfitsH.mem_memberIds hh, hfits.mem_memberIds hg]
    by_cases hc : c = root
    · subst hc
      rw [onTop_root, if_pos rfl, if_pos rfl, halong.members_root, List.map_append,
        List.map_singleton, halong.onTop_nextId hg hh, List.append_assoc]
    · rw [if_neg (Ne.symm hc), if_neg (onTop_ne_root hc).symm, halong.members_root]
  old := by
    intro id hid hlt
    have hsize := halong.size
    have hnext : id ≠ h.nextId := by
      rintro rfl
      have hpos := index_lt_of_key? hg.key?_root
      rw [index_nextId hh.size_lt] at hlt
      omega
    have hnew : ∀ {d : DeclId}, d.index < g.size → onTop base d ≠ id := by
      rintro d hdLt rfl
      by_cases hd : d = root
      · rw [hd, onTop_root] at hid
        contradiction
      · have hle := halong.size_le_onTop hd hdLt hh
        omega
    have hcontainer : id ≠ onTop base c := by
      obtain ⟨key, hkey⟩ := Option.isSome_iff_exists.mp hfits.isContainer
      exact (hnew (index_lt_of_key? hkey)).symm
    have hcompanion : (decl.renumber (onTop base)).companion? ≠ some id := by
      intro hmate
      rw [decl.companion?_renumber, Option.map_eq_some_iff] at hmate
      obtain ⟨other, hother, hsame⟩ := hmate
      obtain ⟨key, -, hkey, -⟩ := hfits.exists_partner hg other hother
      exact hnew (index_lt_of_key? hkey) hsame
    rw [hfitsH.get?_enlist hh, if_neg hnext]
    simp only [if_neg hcontainer, if_neg hcompanion, Option.map_id']
    exact halong.old hid hlt
  new := by
    intro d hd hlt
    rw [size_enlist] at hlt
    rw [hfitsH.get?_enlist hh, hfits.get?_enlist hg, ← halong.onTop_nextId hg hh]
    by_cases hnext : d = g.nextId
    · rw [if_pos (congrArg _ hnext), if_pos hnext, Option.map_some]
    · have hne : d.index ≠ g.size := fun hindex =>
        hnext (DeclId.eq_of_index_eq (hindex.trans (index_nextId hg.size_lt).symm))
      have hmate : (decl.renumber (onTop base)).companion? = some (onTop base d) ↔
          decl.companion? = some d := by
        rw [decl.companion?_renumber]
        exact (Option.map_injective (onTop_injective base)).eq_iff (b := some d)
      rw [if_neg ((onTop_injective base).ne hnext), if_neg hnext, halong.new hd (by omega),
        Option.map_map, Option.map_map]
      congr 1
      funext old
      have hgrown : (if d = c then (old.renumber (onTop base)).mapScope
            (Scope.add · decl.key? (onTop base g.nextId)) else old.renumber (onTop base)) =
          (if d = c then old.mapScope (Scope.add · decl.key? g.nextId) else old).renumber
            (onTop base) := by
        split
        · exact (Decl.renumber_mapScope _ (Scope.renumber_add _ _ _) old).symm
        · rfl
      simp only [Function.comp_apply, (onTop_injective base).eq_iff, hmate, Decl.key?_renumber,
        hgrown]
      split
      · exact (Decl.renumber_withCompanion _ _ _).symm
      · rfl

/-- A declaration is modified alongside. -/
theorem modify (hh : Coherent h) {d : DeclId} (hd : d ≠ root) (hlt : d.index < g.size)
    {change change' : Decl → Decl}
    (hchange : ∀ decl, (change decl).renumber (onTop base) =
      change' (decl.renumber (onTop base))) :
    Alongside base (g.modify d change) (h.modify (onTop base d) change') := by
  have hroot : ∀ {k : Graph} {id : DeclId} {change : Decl → Decl}, id ≠ root →
      (k.modify id change).header? root = k.header? root ∧
        (k.modify id change).memberIds root = k.memberIds root := by
    intro k id change hid
    rw [header?, memberIds, get?_modify, if_neg hid.symm]
    exact ⟨rfl, rfl⟩
  exact {
    size := by rw [size_modify, size_modify, halong.size]
    header_root := (hroot (onTop_ne_root hd)).1.trans halong.header_root
    members_root := by
      rw [(hroot (onTop_ne_root hd)).2, (hroot hd).2, halong.members_root]
    old := by
      intro id hid hidLt
      have hle := halong.size_le_onTop hd hlt hh
      rw [get?_modify, if_neg (by rintro rfl; omega), halong.old hid hidLt]
    new := by
      intro e he heLt
      rw [size_modify] at heLt
      rw [get?_modify, get?_modify, halong.new he heLt]
      by_cases hsame : e = d
      · rw [if_pos (congrArg _ hsame), if_pos hsame, Option.map_map, Option.map_map]
        congr 1
        funext decl
        exact (hchange decl).symm
      · rw [if_neg ((onTop_injective base).ne hsame), if_neg hsame] }

/-! ### Requests -/

section Requests

variable (hbase : Coherent base) (hg : Coherent g) (hh : Coherent h)

include hg hh in
/-- What is on top of the base has its key. -/
theorem key?_onTop {c : DeclId} (hc : c.index < g.size) : h.key? (onTop base c) = g.key? c := by
  by_cases hroot : c = root
  · rw [hroot, onTop_root, hh.key?_root, hg.key?_root]
  · exact halong.key?_new hroot hc

include hh in
/-- A member that is no container is enlisted alongside. -/
theorem enlist_leaf (hg : Coherent g) {c : DeclId} (hcontainer : (g.key? c).isSome) {decl : Decl}
    (hleaf : decl.key? = none) :
    (h.key? (onTop base c)).isSome ∧
      Alongside base (g.enlist c decl) (h.enlist (onTop base c) decl) := by
  obtain ⟨key, hkey⟩ := Option.isSome_iff_exists.mp hcontainer
  have hthere : (h.key? (onTop base c)).isSome := by
    rwa [halong.key?_onTop hg hh (index_lt_of_key? hkey)]
  have hgrown := halong.enlist hg hh (fits_leaf hcontainer hleaf)
    (by rw [Decl.renumber_of_key?_eq_none _ hleaf]; exact fits_leaf hthere hleaf)
  rw [Decl.renumber_of_key?_eq_none _ hleaf] at hgrown
  exact ⟨hthere, hgrown⟩

include hbase hg hh

/-- A lookup finds alongside what it finds, if the base has nothing under the key in the root. -/
theorem lookup_onTop (hapart : ∀ key, (g.lookup root key).isSome → base.lookup root key = none)
    {c : DeclId} (hc : c.index < g.size) {key : Key}
    (hkey : c = root → base.lookup root key = none) :
    h.lookup (onTop base c) key = (g.lookup c key).map (onTop base) := by
  by_cases hroot : c = root
  · rw [hroot, onTop_root]
    exact (halong.beside hbase hg hapart).lookup_root_new Transparent.id hbase hg hh (hkey hroot)
  · apply lookup_of_copied hg hh (halong.memberIds_new hroot hc)
    intro member hmember
    have howner := hg.mem_memberIds.mp hmember
    exact halong.key?_new (hg.ne_root_of_owner? howner) (hg.index_lt_of_owner? howner)

/-- A container is found or made alongside, if the base has nothing under its key in the root. -/
theorem ensured (hapart : ∀ key, (g.lookup root key).isSome → base.lookup root key = none)
    {c : DeclId} {key : Key} (hcontainer : (g.key? c).isSome) (hkind : key.1.isContainer)
    (hpackage : key.1 = .package → g.kind? c = some .package)
    (hroot : c = root → key.1 = .package ∧ base.lookup root key = none) :
    (h.ensured (onTop base c) key).1 = onTop base (g.ensured c key).1 ∧
      Alongside base (g.ensured c key).2 (h.ensured (onTop base c) key).2 := by
  obtain ⟨cKey, hcKey⟩ := Option.isSome_iff_exists.mp hcontainer
  have hc := index_lt_of_key? hcKey
  have hthere : h.key? (onTop base c) = some cKey := by rw [halong.key?_onTop hg hh hc, hcKey]
  have hlookup := halong.lookup_onTop hbase hg hh hapart hc fun h => (hroot h).2
  unfold Graph.ensured
  cases hfound : g.lookup c key with
  | some id =>
      rw [hfound, Option.map_some] at hlookup
      rw [hlookup]
      exact ⟨rfl, halong⟩
  | none =>
      rw [hfound, Option.map_none] at hlookup
      have hnewcomer : h.newcomer (onTop base c) key =
          (g.newcomer c key).renumber (onTop base) := by
        have hpartner : key.partner?.bind (h.lookup (onTop base c)) =
            (key.partner?.bind (g.lookup c)).map (onTop base) := by
          cases hpartner : key.partner? with
          | none => rfl
          | some partner =>
              -- A package has no partner, so this is not in the root.
              apply halong.lookup_onTop hbase hg hh hapart hc
              intro hisRoot
              obtain ⟨kind, name⟩ := key
              obtain rfl : kind = .package := (hroot hisRoot).1
              contradiction
        rw [newcomer, newcomer, hpartner]
        obtain ⟨kind, name⟩ := key
        cases kind <;> rfl
      have hfits := fits_newcomer hcontainer hkind hfound hpackage
      have hfitsH : Fits h (onTop base c) (h.newcomer (onTop base c) key) := by
        apply fits_newcomer (Option.isSome_of_eq_some hthere) hkind hlookup
        intro hisPackage
        rw [kind?_of_key? hthere, ← kind?_of_key? hcKey, hpackage hisPackage]
      rw [hlookup]
      rw [hnewcomer] at hfitsH ⊢
      exact ⟨(halong.onTop_nextId hg hh).symm, halong.enlist hg hh hfits hfitsH⟩

omit hbase in
/-- A name is issued alongside. -/
theorem issueName {c : DeclId} (hc : c ≠ root) {name : Name} {g' : Graph}
    (hrun : Graph.issueName c g = .ok name g') :
    ∃ h', Graph.issueName (onTop base c) h = .ok name h' ∧ Alongside base g' h' := by
  obtain ⟨hcontainer, hleft, rfl, rfl⟩ := exists_of_issueName hrun
  obtain ⟨key, hkey⟩ := Option.isSome_iff_exists.mp hcontainer
  have hlt := index_lt_of_key? hkey
  have hthere : (h.key? (onTop base c)).isSome := by rwa [halong.key?_onTop hg hh hlt]
  have hissued := halong.issued_new hc hlt
  obtain ⟨h', hrunH⟩ := exists_issueName hthere (by rwa [hissued])
  obtain ⟨-, -, -, rfl⟩ := exists_of_issueName hrunH
  rw [hissued] at hrunH
  refine ⟨_, hrunH, halong.modify hh hc hlt ?_⟩
  exact Decl.renumber_mapScope _ (Scope.renumber_issue _)

omit hbase in
theorem method?_onTop {id : DeclId} (hid : id.index < g.size) :
    h.method? (onTop base id) = g.method? id := by
  by_cases hroot : id = root
  · have hnone : ∀ {k : Graph}, Coherent k → k.method? root = none := by
      intro k hk
      rw [← Option.not_isSome_iff_eq_none, isSome_method?_iff, kind?_of_key? hk.key?_root]
      decide
    rw [hroot, onTop_root, hnone hg, hnone hh]
  · exact halong.method?_new hroot hid

omit hbase in
/-- What is a duplicate is one alongside, and nothing else is. -/
theorem isDuplicate_iff {c id : DeclId} (hc : c ≠ root) (hcLt : c.index < g.size)
    (hid : id.index < g.size) {duplicate : Bool} :
    h.isDuplicate (onTop base c) (onTop base id) = .ok duplicate ↔
      g.isDuplicate c id = .ok duplicate := by
  have hcontains : ((g.memberIds c).map (onTop base)).contains (onTop base id) =
      (g.memberIds c).contains id := by
    rw [Bool.eq_iff_iff, List.contains_iff_mem, List.contains_iff_mem,
      List.mem_map_of_injective (onTop_injective base)]
  have halike : ∀ method, h.anyAlike ((g.memberIds c).map (onTop base)) (onTop base id) method =
      g.anyAlike (g.memberIds c) id method := by
    intro method
    rw [anyAlike, anyAlike, List.any_map, Bool.eq_iff_iff, List.any_eq_true, List.any_eq_true]
    refine exists_congr fun other => and_congr_right fun hother => ?_
    have hotherLt := hg.index_lt_of_owner? (hg.mem_memberIds.mp hother)
    simp only [Function.comp_apply, ne_eq, (onTop_injective base).eq_iff,
      halong.method?_onTop hg hh hotherLt]
  rw [isDuplicate_eq_ok_iff, isDuplicate_eq_ok_iff, halong.method?_onTop hg hh hid,
    halong.key?_onTop hg hh hcLt, halong.memberIds_new hc hcLt]
  simp only [hcontains, halike]

omit hbase in
/-- A duplicate is dropped alongside. -/
theorem dropDuplicate {c id : DeclId} (hc : c ≠ root) (hcLt : c.index < g.size)
    (hid : id.index < g.size) {dropped : Bool} {g' : Graph}
    (hrun : Graph.dropDuplicate c id g = .ok dropped g') :
    ∃ h', Graph.dropDuplicate (onTop base c) (onTop base id) h = .ok dropped h' ∧
      Alongside base g' h' := by
  obtain ⟨duplicate, hduplicate, hact⟩ := Build.exists_of_checked_eq_ok hrun
  obtain ⟨rfl, rfl⟩ := Prod.mk.inj hact
  refine ⟨_, Build.checked_of_ok ((halong.isDuplicate_iff hg hh hc hcLt hid).mpr hduplicate), ?_⟩
  cases duplicate with
  | false => exact halong
  | true =>
      have hdrop : ∀ decl : Decl, (decl.mapScope (Scope.drop · id)).renumber (onTop base) =
          (decl.renumber (onTop base)).mapScope (Scope.drop · (onTop base id)) :=
        Decl.renumber_mapScope _ (Scope.renumber_drop (onTop_injective base) id)
      have hdropped := halong.modify hh hc hcLt hdrop
      exact {
        size := hdropped.size
        header_root := hdropped.header_root
        members_root := hdropped.members_root
        old := hdropped.old
        new := hdropped.new }

end Requests

end Alongside

end Graph
end DeclGraph
