import DeclGraph.Graph.Build
import Mathlib.Tactic.ByContra

/-!
# Views of a graph

A graph is looked at slot by slot through a handful of views: the owner of a slot,
its header, its members, its index and its companion.  The header is what remains
of a declaration when everything is taken away that places it in the tree.

Three elementary changes are described through these views, and everything else
that changes a graph is made of them: a new member is enlisted, a declaration is
modified in place, and a method is detached.

Main results:

- Theorem `Graph.get?_enlist`: what every slot holds after a member was enlisted.
- Theorems `Graph.memberIds_enlist`, `Graph.lookup_enlist`,
  `Graph.companion?_enlist`, `Graph.owner?_enlist`: the single views after it.
- Theorems `Graph.memberIds_detach` and `Graph.owner?_detach`: the views that
  detaching a member changes.
-/

namespace DeclGraph

/-- Ids of one slot are one id. -/
theorem DeclId.eq_of_index_eq {a b : DeclId} (h : a.index = b.index) : a = b := by
  rw [← DeclId.ofIndex_index a, h, DeclId.ofIndex_index]

/-! ## Keys and companions -/

/-- The key that the companion of a class or object is indexed by. -/
def Key.partner? : Key → Option Key
  | (.klass, name) => some (.object, name)
  | (.object, name) => some (.klass, name)
  | _ => none

/-- The partner of a partner is the key itself. -/
theorem Key.partner?_symm {key other : Key} (h : key.partner? = some other) :
    other.partner? = some key := by
  rcases key with ⟨kind, name⟩
  cases kind <;> simp [Key.partner?] at h <;> subst h <;> rfl

/-- No key is its own partner. -/
theorem Key.partner?_ne {key other : Key} (h : key.partner? = some other) : other ≠ key := by
  rcases key with ⟨kind, name⟩
  cases kind <;> simp [Key.partner?] at h <;> subst h <;> simp

namespace Decl

/-- The index of the members; a declaration that is no container has none. -/
def index (decl : Decl) : List (Key × DeclId) :=
  (decl.scope?.map Scope.index).getD []

/-- How many anonymous names a declaration has issued. -/
def issued (decl : Decl) : UInt32 :=
  (decl.scope?.map Scope.issued).getD 0

/-- A declaration without its members, their index and its companion. -/
def header : Decl → Decl
  | package p => package { p with scope := { issued := p.scope.issued } }
  | klass k => klass { k with scope := { issued := k.scope.issued }, companion := none }
  | object o => object { o with scope := { issued := o.scope.issued }, companion := none }
  | decl => decl

@[simp]
theorem kind_header (decl : Decl) : decl.header.kind = decl.kind := by
  cases decl <;> rfl

@[simp]
theorem key?_header (decl : Decl) : decl.header.key? = decl.key? := by
  cases decl <;> rfl

@[simp]
theorem issued_header (decl : Decl) : decl.header.issued = decl.issued := by
  cases decl <;> rfl

@[simp]
theorem header_withCompanion (id : DeclId) (decl : Decl) :
    (decl.withCompanion id).header = decl.header := by
  cases decl <;> rfl

@[simp]
theorem header_mapScope_add (key : Option Key) (id : DeclId) (decl : Decl) :
    (decl.mapScope (Scope.add · key id)).header = decl.header := by
  cases decl <;> rfl

@[simp]
theorem header_mapScope_drop (id : DeclId) (decl : Decl) :
    (decl.mapScope (Scope.drop · id)).header = decl.header := by
  cases decl <;> rfl

@[simp]
theorem memberIds_withCompanion (id : DeclId) (decl : Decl) :
    (decl.withCompanion id).memberIds = decl.memberIds := by
  simp [memberIds]

@[simp]
theorem index_withCompanion (id : DeclId) (decl : Decl) :
    (decl.withCompanion id).index = decl.index := by
  simp [index]

@[simp]
theorem companion?_mapScope (change : Scope → Scope) (decl : Decl) :
    (decl.mapScope change).companion? = decl.companion? := by
  cases decl <;> rfl

/-- A new member comes last among the members of a container. -/
theorem memberIds_mapScope_add {decl : Decl} (h : decl.key?.isSome) (key : Option Key)
    (id : DeclId) :
    (decl.mapScope (Scope.add · key id)).memberIds = decl.memberIds ++ [id] := by
  cases decl <;> first | rfl | simp [key?] at h

/-- A new member comes first in the index of a container. -/
theorem index_mapScope_add {decl : Decl} (h : decl.key?.isSome) (key : Option Key)
    (id : DeclId) :
    (decl.mapScope (Scope.add · key id)).index =
      (key.map fun key => (key, id)).toList ++ decl.index := by
  cases decl <;> first | rfl | simp [key?] at h

@[simp]
theorem memberIds_mapScope_drop (id : DeclId) (decl : Decl) :
    (decl.mapScope (Scope.drop · id)).memberIds = decl.memberIds.erase id := by
  cases decl <;> rfl

@[simp]
theorem index_mapScope_drop (id : DeclId) (decl : Decl) :
    (decl.mapScope (Scope.drop · id)).index = decl.index := by
  cases decl <;> rfl

/-- Classes and objects take the companion that they are given. -/
theorem companion?_withCompanion {decl : Decl} {key partner : Key} (h : decl.key? = some key)
    (hpartner : key.partner? = some partner) (id : DeclId) :
    (decl.withCompanion id).companion? = some id := by
  cases decl <;> simp [key?] at h <;> subst h <;> first | rfl | simp [Key.partner?] at hpartner

/-- A declaration that is no container is its own header. -/
theorem header_of_key?_eq_none {decl : Decl} (h : decl.key? = none) : decl.header = decl := by
  cases decl <;> first | rfl | simp [key?] at h

/-- A declaration that is no container has no members. -/
theorem memberIds_of_key?_eq_none {decl : Decl} (h : decl.key? = none) : decl.memberIds = [] := by
  cases decl <;> first | rfl | simp [key?] at h

/-- Only containers have keys, and a key shows the kind. -/
theorem kind_of_key? {decl : Decl} {key : Key} (h : decl.key? = some key) :
    decl.kind = key.1 := by
  cases decl <;> simp [key?] at h <;> subst h <;> rfl

end Decl

namespace Graph

/-! ## Views -/

/-- A declaration without what places it in the tree. -/
def header? (g : Graph) (id : DeclId) : Option Decl :=
  (g.get? id).map Decl.header

/-- The kind of a declaration. -/
def kind? (g : Graph) (id : DeclId) : Option Kind :=
  (g.get? id).map Decl.kind

/-- What a container is indexed by. -/
def key? (g : Graph) (id : DeclId) : Option Key :=
  (g.get? id).bind Decl.key?

/-- The members of a container; nothing else has members. -/
def memberIds (g : Graph) (id : DeclId) : List DeclId :=
  ((g.get? id).map Decl.memberIds).getD []

/-- The index of a container; nothing else has an index. -/
def index (g : Graph) (id : DeclId) : List (Key × DeclId) :=
  ((g.get? id).map Decl.index).getD []

/-- The member that a container has indexed under a key. -/
def lookup (g : Graph) (container : DeclId) (key : Key) : Option DeclId :=
  (g.index container).lookup key

/-- How many anonymous names a container has issued; nothing else issues names. -/
def issued (g : Graph) (id : DeclId) : UInt32 :=
  ((g.get? id).map Decl.issued).getD 0

theorem kind?_eq_header? (g : Graph) (id : DeclId) :
    g.kind? id = (g.header? id).map Decl.kind := by
  simp [kind?, header?, Function.comp_def]

theorem key?_eq_header? (g : Graph) (id : DeclId) :
    g.key? id = (g.header? id).bind Decl.key? := by
  cases h : g.get? id <;> simp [key?, header?, h]

theorem issued_eq_header? (g : Graph) (id : DeclId) :
    g.issued id = ((g.header? id).map Decl.issued).getD 0 := by
  simp [issued, header?, Function.comp_def]

/-- The kind of a container is the kind in its key. -/
theorem kind?_of_key? {g : Graph} {id : DeclId} {key : Key} (h : g.key? id = some key) :
    g.kind? id = some key.1 := by
  rcases Option.bind_eq_some_iff.mp h with ⟨decl, hdecl, hkey⟩
  simp [kind?, hdecl, Decl.kind_of_key? hkey]

theorem klass?_eq_some_iff {g : Graph} {id : DeclId} {k : ClassDecl} :
    g.klass? id = some k ↔ g.get? id = some (.klass k) := by
  cases hget : g.get? id with
  | none => simp [klass?, hget]
  | some decl => cases decl <;> simp [klass?, hget, Decl.klass?]

theorem isSome_package?_iff {g : Graph} {id : DeclId} :
    (g.package? id).isSome ↔ g.kind? id = some .package := by
  cases hget : g.get? id with
  | none => simp [package?, kind?, hget]
  | some decl => cases decl <;> simp [package?, kind?, hget, Decl.package?, Decl.kind]

theorem isSome_method?_iff {g : Graph} {id : DeclId} :
    (g.method? id).isSome ↔ g.kind? id = some .method := by
  cases hget : g.get? id with
  | none => simp [method?, kind?, hget]
  | some decl => cases decl <;> simp [method?, kind?, hget, Decl.method?, Decl.kind]

/-- What has a key is of a kind that holds members. -/
theorem isSome_key?_iff_kind? {g : Graph} {id : DeclId} :
    (g.key? id).isSome ↔ ∃ kind, g.kind? id = some kind ∧ kind.isContainer = true := by
  cases hget : g.get? id with
  | none => simp [key?, kind?, hget]
  | some decl => simp [key?, kind?, hget, Decl.isSome_key?, Decl.isContainer]

/-- What shows members has a key. -/
theorem isSome_scope?_iff {g : Graph} {id : DeclId} :
    (g.scope? id).isSome ↔ (g.key? id).isSome := by
  cases hget : g.get? id with
  | none => simp [scope?, key?, hget]
  | some decl => simp [scope?, key?, hget, Decl.isSome_scope?, Decl.isSome_key?]

/-- A package is a container. -/
theorem isSome_key?_of_package {g : Graph} {id : DeclId} (h : g.kind? id = some .package) :
    (g.key? id).isSome :=
  isSome_key?_iff_kind?.mpr ⟨.package, h, rfl⟩

/-- Whatever has the key of a package is one. -/
theorem kind?_package_of_key?_eq {g h : Graph} {a b : DeclId} (hkey : h.key? b = g.key? a)
    (hkind : g.kind? a = some .package) : h.kind? b = some .package := by
  rcases Option.isSome_iff_exists.mp (isSome_key?_of_package hkind) with ⟨key, ha⟩
  rw [kind?_of_key? (hkey.trans ha), ← kind?_of_key? ha, hkind]

/-- A method is not indexed. -/
theorem key?_of_method {g : Graph} {id : DeclId} (h : g.kind? id = some .method) :
    g.key? id = none := by
  rcases Option.map_eq_some_iff.mp h with ⟨decl, hdecl, hkind⟩
  cases decl <;> simp [Decl.kind] at hkind
  simp [key?, hdecl, Decl.key?]

/-- What is attached is the root or owned. -/
theorem isAttached_iff_owned {g : Graph} {id : DeclId} :
    g.isAttached id = true ↔ id = root ∨ ∃ container, g.owner? id = some container := by
  simp [isAttached, Option.isSome_iff_exists]

/-- Only slots of the graph hold a declaration. -/
theorem get?_eq_none_iff {g : Graph} {id : DeclId} : g.get? id = none ↔ g.size ≤ id.index := by
  simp [get?, size]

theorem index_lt_of_get? {g : Graph} {id : DeclId} {decl : Decl} (h : g.get? id = some decl) :
    id.index < g.size := by
  by_contra hle
  simp [get?_eq_none_iff.mpr (Nat.le_of_not_lt hle)] at h

theorem index_lt_of_key? {g : Graph} {id : DeclId} {key : Key} (h : g.key? id = some key) :
    id.index < g.size := by
  rcases Option.bind_eq_some_iff.mp h with ⟨decl, hdecl, -⟩
  exact index_lt_of_get? hdecl

theorem index_lt_of_kind? {g : Graph} {id : DeclId} {kind : Kind} (h : g.kind? id = some kind) :
    id.index < g.size := by
  rcases Option.map_eq_some_iff.mp h with ⟨decl, hdecl, -⟩
  exact index_lt_of_get? hdecl

/-- Every slot of the graph holds a declaration. -/
theorem exists_get? {g : Graph} {id : DeclId} (h : id.index < g.size) :
    ∃ decl, g.get? id = some decl := by
  cases hget : g.get? id with
  | some decl => exact ⟨decl, rfl⟩
  | none => exact absurd (get?_eq_none_iff.mp hget) (by omega)

/-- What is in a slot is among the declarations of the graph. -/
theorem mem_decls_of_get? {g : Graph} {id : DeclId} {decl : Decl} (h : g.get? id = some decl) :
    decl ∈ g.decls.toList := by
  rw [Array.mem_toList_iff]
  exact Array.mem_of_getElem? h

/-- Beyond the slots nothing has a header. -/
theorem header?_of_size_le {g : Graph} {id : DeclId} (h : g.size ≤ id.index) :
    g.header? id = none := by
  simp [header?, get?_eq_none_iff.mpr h]

/-- Beyond the slots nothing has members. -/
theorem memberIds_of_size_le {g : Graph} {id : DeclId} (h : g.size ≤ id.index) :
    g.memberIds id = [] := by
  simp [memberIds, get?_eq_none_iff.mpr h]

/-- Beyond the slots nothing has issued names. -/
theorem issued_of_size_le {g : Graph} {id : DeclId} (h : g.size ≤ id.index) : g.issued id = 0 := by
  simp [issued, get?_eq_none_iff.mpr h]

/-- What is no container has no members. -/
theorem memberIds_of_key?_eq_none {g : Graph} {id : DeclId} (h : g.key? id = none) :
    g.memberIds id = [] := by
  cases hget : g.get? id with
  | none => simp [memberIds, hget]
  | some decl =>
      rw [key?, hget, Option.bind_some] at h
      simp [memberIds, hget, Decl.memberIds_of_key?_eq_none h]

/-- Beyond the slots nothing is indexed. -/
theorem index_of_size_le {g : Graph} {id : DeclId} (h : g.size ≤ id.index) :
    g.index id = [] := by
  simp [index, get?_eq_none_iff.mpr h]

/-! ## Enlisting a new member -/

/-- Fill the next slot with a new member of a container, and tell its companion of it. -/
def enlist (g : Graph) (container : DeclId) (decl : Decl) : Graph :=
  (g.attach container decl).linkBack decl.companion? g.nextId

@[simp]
theorem size_enlist (g : Graph) (container : DeclId) (decl : Decl) :
    (g.enlist container decl).size = g.size + 1 := by
  unfold enlist linkBack
  split <;> simp

theorem owners_enlist (g : Graph) (container : DeclId) (decl : Decl) :
    (g.enlist container decl).owners = g.owners.push (some container) := by
  unfold enlist linkBack
  split <;> rfl

/-- The next id stands for the first slot that is not filled. -/
theorem index_nextId {g : Graph} (h : g.size < UInt32.size) : g.nextId.index = g.size := by
  simpa [nextId] using Nat.mod_eq_of_lt h

/-- Nothing is in the next slot yet. -/
theorem header?_nextId {g : Graph} (h : g.size < UInt32.size) : g.header? g.nextId = none := by
  rw [header?, get?_eq_none_iff.mpr (Nat.le_of_eq (index_nextId h).symm), Option.map_none]

theorem ne_nextId_of_lt {g : Graph} {id : DeclId} (hsize : g.size < UInt32.size)
    (h : id.index < g.size) : id ≠ g.nextId := by
  rintro rfl
  rw [index_nextId hsize] at h
  exact Nat.lt_irrefl _ h

theorem ne_nextId_of_key? {g : Graph} {id : DeclId} {key : Key} (hsize : g.size < UInt32.size)
    (h : g.key? id = some key) : id ≠ g.nextId :=
  ne_nextId_of_lt hsize (index_lt_of_key? h)

/-- What a slot holds after a member was enlisted: the new slot the new member, the container the
longer list of members, the companion of the new member its link to it. -/
theorem get?_enlist {g : Graph} {container : DeclId} {decl : Decl} (hsize : g.size < UInt32.size)
    (hcontainer : container.index < g.size)
    (hcompanion : ∀ other, decl.companion? = some other → other.index < g.size) (id : DeclId) :
    (g.enlist container decl).get? id =
      if id = g.nextId then some decl
      else (g.get? id).map fun old =>
        let grown := if id = container then old.mapScope (Scope.add · decl.key? g.nextId) else old
        if decl.companion? = some id then grown.withCompanion g.nextId else grown := by
  have hnext := index_nextId hsize
  have happend : (g.append container decl).get? id =
      if id = g.nextId then some decl else g.get? id := by
    by_cases hid : id = g.nextId
    · rw [if_pos hid, hid, get?_append_next g container decl hsize]
    · rw [if_neg hid]
      by_cases hlt : id.index < g.size
      · exact get?_append_old g container id decl hlt
      · have hne : id.index ≠ g.size := fun h => hid (DeclId.eq_of_index_eq (h.trans hnext.symm))
        have hbeyond : (g.append container decl).size ≤ id.index := by
          rw [size_append]
          omega
        rw [get?_eq_none_iff.mpr hbeyond, get?_eq_none_iff.mpr (by omega)]
  have hcontainerNe : container ≠ g.nextId := by
    intro h
    rw [h, hnext] at hcontainer
    exact Nat.lt_irrefl _ hcontainer
  have hattach : (g.attach container decl).get? id =
      if id = g.nextId then some decl
      else (g.get? id).map fun old =>
        if id = container then old.mapScope (Scope.add · decl.key? g.nextId) else old := by
    rw [attach, get?_modify, happend]
    by_cases hid : id = g.nextId
    · simp [hid, hcontainerNe.symm]
    · by_cases hc : id = container
      · simp [hc, hcontainerNe]
      · simp [hid, hc]
  unfold enlist linkBack
  cases hmate : decl.companion? with
  | none => simpa using hattach
  | some other =>
    have hotherNe : other ≠ g.nextId := by
      intro h
      have := hcompanion other hmate
      rw [h, hnext] at this
      exact Nat.lt_irrefl _ this
    simp only [get?_modify, hattach]
    by_cases hid : id = g.nextId
    · simp [hid, hotherNe.symm]
    · by_cases hother : id = other
      · simp [hother, hotherNe, Function.comp_def]
      · simp [hid, hother, Ne.symm hother]

section Enlist

variable {g : Graph} {container : DeclId} {decl : Decl} (hsize : g.size < UInt32.size)
  (hcontainer : (g.key? container).isSome)
  (hcompanion : ∀ other, decl.companion? = some other →
    ∃ key partner, g.key? other = some key ∧ key.partner? = some partner)

include hsize hcontainer hcompanion

/-- `get?_enlist` for a container and a companion that are known by their keys. -/
private theorem get?_enlist_of_keys (id : DeclId) :
    (g.enlist container decl).get? id =
      if id = g.nextId then some decl
      else (g.get? id).map fun old =>
        let grown := if id = container then old.mapScope (Scope.add · decl.key? g.nextId) else old
        if decl.companion? = some id then grown.withCompanion g.nextId else grown := by
  rcases Option.isSome_iff_exists.mp hcontainer with ⟨key, hkey⟩
  refine get?_enlist hsize (index_lt_of_key? hkey) ?_ id
  intro other hother
  rcases hcompanion other hother with ⟨otherKey, -, hotherKey, -⟩
  exact index_lt_of_key? hotherKey

/-- Enlisting a member changes no header. -/
theorem header?_enlist (id : DeclId) :
    (g.enlist container decl).header? id =
      if id = g.nextId then some decl.header else g.header? id := by
  rw [header?, get?_enlist_of_keys hsize hcontainer hcompanion]
  by_cases hid : id = g.nextId
  · simp [hid]
  · simp only [if_neg hid, header?, Option.map_map]
    congr 1
    funext old
    simp only [Function.comp_apply]
    split <;> split <;> simp

/-- A new member comes last among the members of its container. -/
theorem memberIds_enlist (hmembers : decl.memberIds = []) (id : DeclId) :
    (g.enlist container decl).memberIds id =
      if id = container then g.memberIds container ++ [g.nextId] else g.memberIds id := by
  rcases Option.isSome_iff_exists.mp hcontainer with ⟨key, hkey⟩
  rcases Option.bind_eq_some_iff.mp hkey with ⟨old, hold, holdKey⟩
  rw [memberIds, get?_enlist_of_keys hsize hcontainer hcompanion]
  by_cases hid : id = g.nextId
  · subst hid
    rw [if_neg (ne_nextId_of_key? hsize hkey).symm,
      memberIds_of_size_le (Nat.le_of_eq (index_nextId hsize).symm)]
    simp [hmembers]
  · by_cases hc : id = container
    · subst hc
      have holdContainer : old.key?.isSome := by simp [holdKey]
      have hadd := Decl.memberIds_mapScope_add holdContainer decl.key? g.nextId
      simp only [if_neg hid, hold, memberIds, Option.map_some, Option.getD_some, if_true]
      split <;> simp [hadd]
    · simp only [if_neg hid, if_neg hc, memberIds, Option.map_map]
      congr 2
      funext other
      simp only [Function.comp_apply]
      split <;> simp

/-- A new member comes first in the index of its container, if it has a key. -/
theorem index_enlist (hindex : decl.index = []) (id : DeclId) :
    (g.enlist container decl).index id =
      if id = container then (decl.key?.map fun key => (key, g.nextId)).toList ++ g.index container
      else g.index id := by
  rcases Option.isSome_iff_exists.mp hcontainer with ⟨key, hkey⟩
  rcases Option.bind_eq_some_iff.mp hkey with ⟨old, hold, holdKey⟩
  rw [index, get?_enlist_of_keys hsize hcontainer hcompanion]
  by_cases hid : id = g.nextId
  · subst hid
    rw [if_neg (ne_nextId_of_key? hsize hkey).symm,
      index_of_size_le (Nat.le_of_eq (index_nextId hsize).symm)]
    simp [hindex]
  · by_cases hc : id = container
    · subst hc
      have holdContainer : old.key?.isSome := by simp [holdKey]
      have hadd := Decl.index_mapScope_add holdContainer decl.key? g.nextId
      simp only [if_neg hid, hold, index, Option.map_some, Option.getD_some, if_true]
      split <;> simp [hadd]
    · simp only [if_neg hid, if_neg hc, index, Option.map_map]
      congr 2
      funext other
      simp only [Function.comp_apply]
      split <;> simp

/-- A new member is found under its key, if it has one. -/
theorem lookup_enlist (hindex : decl.index = []) (id : DeclId) (key : Key) :
    (g.enlist container decl).lookup id key =
      if id = container ∧ decl.key? = some key then some g.nextId else g.lookup id key := by
  rw [lookup, index_enlist hsize hcontainer hcompanion hindex]
  by_cases hc : id = container
  · subst hc
    cases hdecl : decl.key? with
    | none => simp [lookup]
    | some own =>
        by_cases hown : own = key
        · simp [hown]
        · have hne : (key == own) = false := by
            simpa using Ne.symm hown
          simp [List.lookup_cons, hown, hne, lookup]
  · simp [hc, lookup]

/-- A new member and its companion are linked to each other. -/
theorem companion?_enlist (id : DeclId) :
    (g.enlist container decl).companion? id =
      if id = g.nextId then decl.companion?
      else if decl.companion? = some id then some g.nextId else g.companion? id := by
  rw [companion?, get?_enlist_of_keys hsize hcontainer hcompanion]
  by_cases hid : id = g.nextId
  · simp [hid]
  · by_cases hmate : decl.companion? = some id
    · rcases hcompanion id hmate with ⟨key, partner, hkey, hpartner⟩
      rcases Option.bind_eq_some_iff.mp hkey with ⟨old, hold, holdKey⟩
      simp only [if_neg hid, if_pos hmate, hold, Option.map_some, Option.bind_some]
      split
      · exact Decl.companion?_withCompanion (by cases old <;> exact holdKey) hpartner _
      · exact Decl.companion?_withCompanion holdKey hpartner _
    · simp only [if_neg hid, if_neg hmate, companion?]
      cases g.get? id with
      | none => rfl
      | some old =>
          simp only [Option.map_some, Option.bind_some]
          split <;> simp

end Enlist

/-- A new member is owned by its container. -/
theorem owner?_enlist {g : Graph} (hsize : g.size < UInt32.size)
    (howners : g.owners.size = g.size) (container : DeclId) (decl : Decl) (id : DeclId) :
    (g.enlist container decl).owner? id =
      if id = g.nextId then some container else g.owner? id := by
  rw [owner?, owners_enlist, Array.getElem?_push, howners, ← index_nextId hsize]
  by_cases hid : id = g.nextId
  · simp [hid]
  · rw [if_neg hid, if_neg (fun h => hid (DeclId.eq_of_index_eq h)), owner?]

/-! ## Modifying a declaration -/

/-- A change to one slot is seen in its header and nowhere else, if it leaves alone what places the
declaration in the tree. -/
theorem header?_modify (g : Graph) (id other : DeclId) (change : Decl → Decl) :
    (g.modify id change).header? other =
      if other = id then (g.get? id).map fun decl => (change decl).header else g.header? other := by
  by_cases hid : other = id
  · simp [header?, get?_modify, hid, Function.comp_def]
  · simp [header?, get?_modify, hid]

@[simp]
theorem owner?_modify (g : Graph) (id other : DeclId) (change : Decl → Decl) :
    (g.modify id change).owner? other = g.owner? other :=
  rfl

/-! ## Detaching a member -/

@[simp]
theorem size_detach (g : Graph) (container member : DeclId) :
    (g.detach container member).size = g.size := by
  simp [detach, size, modify]

@[simp]
theorem size_owners_detach (g : Graph) (container member : DeclId) :
    (g.detach container member).owners.size = g.owners.size := by
  simp [detach]

/-- A detached member has no owner. -/
theorem owner?_detach (g : Graph) (container member id : DeclId) :
    (g.detach container member).owner? id = if id = member then none else g.owner? id := by
  by_cases hid : id = member
  · subst hid
    simp only [owner?, detach, Array.getElem?_modify, if_true]
    cases g.owners[id.index]? <;> rfl
  · have hindex : member.index ≠ id.index := fun h => hid (DeclId.eq_of_index_eq h.symm)
    simp [owner?, detach, Array.getElem?_modify, hid, hindex]

theorem get?_detach (g : Graph) (container member id : DeclId) :
    (g.detach container member).get? id =
      if id = container then (g.get? id).map (Decl.mapScope (Scope.drop · member))
      else g.get? id :=
  get?_modify g container id _

/-- A detached member is no longer among the members of its container. -/
theorem memberIds_detach (g : Graph) (container member id : DeclId) :
    (g.detach container member).memberIds id =
      if id = container then (g.memberIds id).erase member else g.memberIds id := by
  rw [memberIds, get?_detach]
  by_cases hid : id = container
  · simp only [if_pos hid, memberIds]
    cases g.get? id <;> simp
  · simp [memberIds, hid]

theorem header?_detach (g : Graph) (container member id : DeclId) :
    (g.detach container member).header? id = g.header? id := by
  rw [header?, get?_detach]
  by_cases hid : id = container
  · simp only [if_pos hid, header?]
    cases g.get? id <;> simp
  · simp [header?, hid]

theorem kind?_detach (g : Graph) (container member id : DeclId) :
    (g.detach container member).kind? id = g.kind? id := by
  rw [kind?_eq_header?, header?_detach, kind?_eq_header?]

theorem key?_detach (g : Graph) (container member id : DeclId) :
    (g.detach container member).key? id = g.key? id := by
  rw [key?_eq_header?, header?_detach, key?_eq_header?]

theorem index_detach (g : Graph) (container member id : DeclId) :
    (g.detach container member).index id = g.index id := by
  rw [index, get?_detach]
  by_cases hid : id = container
  · simp only [if_pos hid, index]
    cases g.get? id <;> simp
  · simp [index, hid]

theorem companion?_detach (g : Graph) (container member id : DeclId) :
    (g.detach container member).companion? id = g.companion? id := by
  rw [companion?, get?_detach]
  by_cases hid : id = container
  · simp only [if_pos hid, companion?]
    cases g.get? id <;> simp
  · simp [companion?, hid]

end Graph
end DeclGraph
