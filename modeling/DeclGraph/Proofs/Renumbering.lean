import Mathlib.Data.Set.Function
import DeclGraph.Proofs.Addresses

/-!
# Renumbering

Two graphs may hold the same declarations in different slots.  Addresses find the
containers that correspond to each other, and places in member lists the rest: two
graphs are aligned if at every address of the one there is a container of the other
whose members look the same in the same order.  Aligned graphs are the same up to
the numbers of their slots.

Main results:

- Definition `Graph.Renumbering`: what it is for two graphs to differ in the numbers of
  their attached slots only.
- Theorem `Graph.Aligned.symm`: what is at an address of the one graph is at an address
  of the other, in both directions.
- Theorem `Graph.Aligned.bijOn_counterpart`: the attached declarations correspond to each
  other one by one.
- Theorem `Graph.Aligned.renumbering`: aligned graphs are renumberings of each other.
-/

namespace DeclGraph

/-- What a declaration shows of itself among the members of a container: a container its key, and
anything else all that there is. -/
def Decl.stub (decl : Decl) : Key ⊕ Decl :=
  match decl.key? with
  | some key => .inl key
  | none => .inr decl

namespace Graph

/-! ## Rosters -/

/-- What a slot shows of itself among the members of a container. -/
def stub? (g : Graph) (id : DeclId) : Option (Key ⊕ Decl) :=
  (g.get? id).map Decl.stub

/-- What the members of a container show of themselves, in their order. -/
def roster (g : Graph) (id : DeclId) : List (Option (Key ⊕ Decl)) :=
  (g.memberIds id).map g.stub?

theorem stub?_eq_inl_iff {g : Graph} {id : DeclId} {key : Key} :
    g.stub? id = some (.inl key) ↔ g.key? id = some key := by
  unfold stub? Graph.key?
  cases g.get? id with
  | none => simp
  | some decl => cases hkey : decl.key? <;> simp [Decl.stub, hkey]

/-- What shows the same has the same key. -/
theorem key?_eq_of_stub?_eq {g h : Graph} {a b : DeclId} (hstub : h.stub? b = g.stub? a) :
    h.key? b = g.key? a := by
  ext key
  rw [← stub?_eq_inl_iff, hstub, stub?_eq_inl_iff]

/-- What shows all that there is, is the same. -/
theorem get?_eq_of_stub?_eq {g h : Graph} {a b : DeclId} (hstub : h.stub? b = g.stub? a)
    (hleaf : g.key? a = none) : h.get? b = g.get? a := by
  have hother := (key?_eq_of_stub?_eq hstub).trans hleaf
  unfold stub? at hstub
  unfold Graph.key? at hleaf hother
  cases ha : g.get? a <;> cases hb : h.get? b <;> simp_all [Decl.stub]

/-! ## Copied containers -/

section Copied

variable {g h : Graph} (hg : Coherent g) (hh : Coherent h) {image : DeclId → DeclId}

include hg hh

/-- A container whose members are copied under their keys has the copies of its containers in it. -/
theorem lookup_of_copied {d e : DeclId} (hmembers : h.memberIds e = (g.memberIds d).map image)
    (hkeys : ∀ member ∈ g.memberIds d, h.key? (image member) = g.key? member) (key : Key) :
    h.lookup e key = (g.lookup d key).map image := by
  ext found
  rw [hh.lookup_eq_some, ← hh.mem_memberIds, hmembers, List.mem_map, Option.map_eq_some_iff]
  constructor
  · rintro ⟨⟨member, hmember, rfl⟩, hkey⟩
    rw [hkeys member hmember] at hkey
    exact ⟨member, hg.lookup_eq_some.mpr ⟨hg.mem_memberIds.mp hmember, hkey⟩, rfl⟩
  · rintro ⟨member, hfound, rfl⟩
    obtain ⟨howner, hkey⟩ := hg.lookup_eq_some.mp hfound
    have hmember := hg.mem_memberIds.mpr howner
    exact ⟨⟨member, hmember, rfl⟩, (hkeys member hmember).trans hkey⟩

omit hg hh in
/-- From what is copied with all that is below it, ways lead down to the copies of what they led
to. -/
theorem foldlM_lookup_of_copied {Copied : DeclId → Prop}
    (hlookup : ∀ {d}, Copied d → ∀ key, h.lookup (image d) key = (g.lookup d key).map image)
    (hbelow : ∀ {d key e}, Copied d → g.lookup d key = some e → Copied e) {d : DeclId}
    (hd : Copied d) (below : List Key) :
    below.foldlM h.lookup (image d) = (below.foldlM g.lookup d).map image := by
  induction below generalizing d with
  | nil => rfl
  | cons key rest ih =>
      rw [List.foldlM_cons, List.foldlM_cons, hlookup hd]
      cases hfound : g.lookup d key with
      | none => rfl
      | some e => exact ih (hbelow hd hfound)

end Copied

/-! ## Aligned graphs -/

/-- At every address of `g` there is a container of `h` with the same roster. -/
def Aligned (g h : Graph) : Prop :=
  ∀ {address : List Key} {id : DeclId}, g.locate address = some id →
    ∃ e, h.locate address = some e ∧ h.roster e = g.roster id

/-- The declaration of `h` that stands at the place of the declaration `id` of `g`: at the same
address, and in the member list there at the same position. -/
def counterpart (g h : Graph) (id : DeclId) : DeclId :=
  (g.owner? id).elim root fun container =>
    ((h.locate (g.address container)).elim [] h.memberIds).getD
      ((g.memberIds container).idxOf id) root

/-- The graph `h` holds what is attached in `g` in other slots: `image` tells in which, and `view`
what becomes of a declaration by itself. -/
structure Renumbering (view : Decl → Decl) (g h : Graph) (image : DeclId → DeclId) : Prop where
  /-- The root stays the root. -/
  root : image root = root
  /-- What is attached in the one graph corresponds to what is attached in the other. -/
  bijOn : Set.BijOn image {d | g.isAttached d} {e | h.isAttached e}
  /-- Declarations keep their kinds, their names, their counts of issued names and all their
  attributes, as far as the view goes. -/
  header : ∀ {d}, g.isAttached d → h.header? (image d) = (g.header? d).map view
  /-- Members keep their order. -/
  members : ∀ {d}, g.isAttached d → h.memberIds (image d) = (g.memberIds d).map image
  /-- Companions stay companions. -/
  companion : ∀ {d}, g.isAttached d → h.companion? (image d) = (g.companion? d).map image

/-- The companion of a class or object is what its container has indexed under the partner key. -/
theorem Coherent.companion?_eq_lookup {g : Graph} (hg : Coherent g) (id : DeclId) :
    g.companion? id = (g.owner? id).bind fun container =>
      ((g.key? id).bind Key.partner?).bind (g.lookup container) := by
  ext other
  rw [hg.companion?_eq_some, Option.bind_eq_some_iff]
  constructor
  · rintro ⟨container, key, partner, howner, hother, hkey, hpartner, hotherKey⟩
    refine ⟨container, howner, ?_⟩
    rw [hkey, Option.bind_some, hpartner, Option.bind_some]
    exact hg.lookup_eq_some.mpr ⟨hother, hotherKey⟩
  · rintro ⟨container, howner, hfound⟩
    obtain ⟨partner, hpartner, hlookup⟩ := Option.bind_eq_some_iff.mp hfound
    obtain ⟨key, hkey, hpartner⟩ := Option.bind_eq_some_iff.mp hpartner
    obtain ⟨hother, hotherKey⟩ := hg.lookup_eq_some.mp hlookup
    exact ⟨container, key, partner, howner, hother, hkey, hpartner, hotherKey⟩

/-- What shows a key in the roster of a container is found there under that key. -/
theorem Coherent.exists_lookup_of_mem_roster {g : Graph} (hg : Coherent g) {id : DeclId} {key : Key}
    (h : some (.inl key) ∈ g.roster id) : ∃ member, g.lookup id key = some member := by
  obtain ⟨member, hmember, hstub⟩ := List.mem_map.mp h
  exact ⟨member, hg.lookup_eq_some.mpr
    ⟨hg.mem_memberIds.mp hmember, stub?_eq_inl_iff.mp hstub⟩⟩

theorem Coherent.mem_roster_of_lookup {g : Graph} (hg : Coherent g) {id member : DeclId} {key : Key}
    (h : g.lookup id key = some member) : some (.inl key) ∈ g.roster id := by
  obtain ⟨howner, hkey⟩ := hg.lookup_eq_some.mp h
  exact List.mem_map.mpr ⟨member, hg.mem_memberIds.mpr howner, stub?_eq_inl_iff.mpr hkey⟩

namespace Aligned

variable {g h : Graph} (hg : Coherent g) (hh : Coherent h) (haligned : Aligned g h)

include hg hh haligned

/-- Aligned graphs have containers at the same addresses. -/
theorem symm : Aligned h g := by
  intro address e he
  -- By induction on the address: what leads on from a container is in its roster.
  induction address using List.reverseRecOn generalizing e with
  | nil =>
      obtain ⟨root', hroot, hroster⟩ := haligned g.locate_nil
      obtain rfl := Option.some.inj (hroot.symm.trans he)
      exact ⟨root, rfl, hroster.symm⟩
  | append_singleton above key ih =>
      have hfound := he
      rw [locate_append_singleton] at hfound
      obtain ⟨container, hcontainer, hlookup⟩ := Option.bind_eq_some_iff.mp hfound
      obtain ⟨partner, hpartner, hroster⟩ := ih hcontainer
      have hshown := hh.mem_roster_of_lookup hlookup
      rw [← hroster] at hshown
      obtain ⟨member, hmember⟩ := hg.exists_lookup_of_mem_roster hshown
      have hlocated : g.locate (above ++ [key]) = some member := by
        rw [locate_append_singleton, hpartner, Option.bind_some, hmember]
      obtain ⟨e', he', hsame⟩ := haligned hlocated
      obtain rfl := Option.some.inj (he'.symm.trans he)
      exact ⟨member, hlocated, hsame.symm⟩

omit hh in
/-- The counterpart of a member stands at its position in the member list at the same address, and
shows the same there. -/
theorem exists_counterpart {container id : DeclId} (howner : g.owner? id = some container) :
    ∃ e, h.locate (g.address container) = some e ∧
      h.stub? (counterpart g h id) = g.stub? id ∧
      (h.memberIds e)[(g.memberIds container).idxOf id]? = some (counterpart g h id) := by
  have hcontainer := hg.isSome_key?_of_owner? howner
  obtain ⟨e, he, hroster⟩ := haligned (hg.locate_address hcontainer)
  have hposition := List.idxOf_lt_length_of_mem (hg.mem_memberIds.mpr howner)
  have hlength : (h.memberIds e).length = (g.memberIds container).length := by
    have hlengths := congrArg List.length hroster
    rwa [roster, roster, List.length_map, List.length_map] at hlengths
  have hcounterpart : (h.memberIds e)[(g.memberIds container).idxOf id]? =
      some (counterpart g h id) := by
    rw [← hlength] at hposition
    simp [counterpart, howner, he, List.getElem?_eq_getElem hposition]
  refine ⟨e, he, ?_, hcounterpart⟩
  have hshown := congrArg (fun stubs => stubs[(g.memberIds container).idxOf id]?) hroster
  simp only [roster, List.getElem?_map, hcounterpart, List.getElem?_eq_getElem hposition,
    List.getElem_idxOf, Option.map_some] at hshown
  exact Option.some.inj hshown

omit hg hh haligned in
theorem counterpart_of_unowned {id : DeclId} (hid : g.owner? id = none) :
    counterpart g h id = root := by
  simp [counterpart, hid]

/-- Counterparts have one key. -/
theorem key?_counterpart {id : DeclId} (hid : g.isAttached id) :
    h.key? (counterpart g h id) = g.key? id := by
  obtain rfl | ⟨container, howner⟩ := isAttached_iff_owned.mp hid
  · rw [counterpart_of_unowned hg.owner?_root, hh.key?_root, hg.key?_root]
  · obtain ⟨e, -, hstub, -⟩ := haligned.exists_counterpart hg howner
    exact key?_eq_of_stub?_eq hstub

/-- The counterpart of a container is at its address. -/
theorem locate_counterpart {id : DeclId} (hid : (g.key? id).isSome) :
    h.locate (g.address id) = some (counterpart g h id) := by
  obtain rfl | ⟨container, howner⟩ := hg.eq_root_or_owned hid
  · rw [counterpart_of_unowned hg.owner?_root, address_root, locate_nil]
  · obtain ⟨e, he, hstub, hposition⟩ := haligned.exists_counterpart hg howner
    obtain ⟨key, hkey⟩ := Option.isSome_iff_exists.mp hid
    have howned := hh.mem_memberIds.mp (List.mem_of_getElem? hposition)
    have hsame := (key?_eq_of_stub?_eq hstub).trans hkey
    rw [hg.address_of_owner? howner, hkey, Option.toList_some, locate_append_singleton, he,
      Option.bind_some]
    exact hh.lookup_eq_some.mpr ⟨howned, hsame⟩

/-- Counterparts have counterparts for owners. -/
theorem owner?_counterpart {container id : DeclId} (howner : g.owner? id = some container) :
    h.owner? (counterpart g h id) = some (counterpart g h container) := by
  obtain ⟨e, he, -, hposition⟩ := haligned.exists_counterpart hg howner
  rw [haligned.locate_counterpart hg hh (hg.isSome_key?_of_owner? howner)] at he
  rw [Option.some.inj he]
  exact hh.mem_memberIds.mp (List.mem_of_getElem? hposition)

theorem isAttached_counterpart {id : DeclId} (hid : g.isAttached id) :
    h.isAttached (counterpart g h id) := by
  obtain rfl | ⟨container, howner⟩ := isAttached_iff_owned.mp hid
  · exact isAttached_iff_owned.mpr (Or.inl (counterpart_of_unowned hg.owner?_root))
  · exact isAttached_iff_owned.mpr (Or.inr ⟨_, haligned.owner?_counterpart hg hh howner⟩)

/-- The members of the counterpart of a container are the counterparts of its members. -/
theorem memberIds_counterpart {id : DeclId} (hid : g.isAttached id) :
    h.memberIds (counterpart g h id) = (g.memberIds id).map (counterpart g h) := by
  cases hkey : g.key? id with
  | none =>
      have hsame := (haligned.key?_counterpart hg hh hid).trans hkey
      rw [memberIds_of_key?_eq_none hkey, memberIds_of_key?_eq_none hsame, List.map_nil]
  | some key =>
      have hcontainer : (g.key? id).isSome := Option.isSome_of_eq_some hkey
      obtain ⟨e, he, hroster⟩ := haligned (hg.locate_address hcontainer)
      rw [haligned.locate_counterpart hg hh hcontainer] at he
      obtain rfl := Option.some.inj he
      apply List.ext_getElem?
      intro i
      rw [List.getElem?_map]
      cases hi : (g.memberIds id)[i]? with
      | none =>
          have hlengths := congrArg List.length hroster
          rw [roster, roster, List.length_map, List.length_map] at hlengths
          rw [List.getElem?_eq_none_iff] at hi
          rw [Option.map_none, List.getElem?_eq_none_iff]
          omega
      | some member =>
          have howner := hg.mem_memberIds.mp (List.mem_of_getElem? hi)
          obtain ⟨e, he, -, hposition⟩ := haligned.exists_counterpart hg howner
          rw [haligned.locate_counterpart hg hh hcontainer] at he
          obtain ⟨hlt, rfl⟩ := List.getElem?_eq_some_iff.mp hi
          rw [(hg.nodup_memberIds id).idxOf_getElem] at hposition
          rw [Option.some.inj he, hposition, Option.map_some]

/-- The counterpart of a counterpart is the declaration itself. -/
theorem counterpart_counterpart {id : DeclId} (hid : g.isAttached id) :
    counterpart h g (counterpart g h id) = id := by
  obtain rfl | ⟨container, howner⟩ := isAttached_iff_owned.mp hid
  · rw [counterpart_of_unowned hg.owner?_root, counterpart_of_unowned hh.owner?_root]
  · have hcontainer := hg.isSome_key?_of_owner? howner
    obtain ⟨e, he, -, hposition⟩ := haligned.exists_counterpart hg howner
    have howned := hh.mem_memberIds.mp (List.mem_of_getElem? hposition)
    obtain ⟨hlt, hmember⟩ := List.getElem?_eq_some_iff.mp hposition
    -- The way back begins at the address and the position that the way here led to.
    have hback : (h.memberIds e).idxOf (counterpart g h id) = (g.memberIds container).idxOf id := by
      rw [← hmember, (hh.nodup_memberIds e).idxOf_getElem]
    have hin := hg.mem_memberIds.mpr howner
    rw [counterpart, howned, Option.elim_some, (hh.locate_eq_some_iff.mp he).2,
      hg.locate_address hcontainer, Option.elim_some, hback, List.getD_eq_getElem?_getD,
      List.getElem?_eq_getElem (List.idxOf_lt_length_of_mem hin), List.getElem_idxOf,
      Option.getD_some]

/-- What is attached in aligned graphs corresponds to each other one by one. -/
theorem bijOn_counterpart :
    Set.BijOn (counterpart g h) {d | g.isAttached d} {e | h.isAttached e} := by
  have hback : Aligned h g := haligned.symm hg hh
  have hinverse : Set.InvOn (counterpart h g) (counterpart g h)
      {d | g.isAttached d} {e | h.isAttached e} :=
    ⟨fun _ hd => haligned.counterpart_counterpart hg hh hd,
      fun _ he => hback.counterpart_counterpart hh hg he⟩
  exact hinverse.bijOn (fun _ hd => haligned.isAttached_counterpart hg hh hd)
    fun _ he => hback.isAttached_counterpart hh hg he

/-- What a container has indexed under a key corresponds to what its counterpart has indexed under
it. -/
theorem lookup_counterpart {container : DeclId} (hcontainer : (g.key? container).isSome)
    (key : Key) : h.lookup (counterpart g h container) key =
      (g.lookup container key).map (counterpart g h) := by
  have hlocated := haligned.locate_counterpart hg hh hcontainer
  cases hfound : g.lookup container key with
  | some member =>
      obtain ⟨howner, hkey⟩ := hg.lookup_eq_some.mp hfound
      have hattached := isAttached_iff_owned.mpr (Or.inr ⟨container, howner⟩)
      exact hh.lookup_eq_some.mpr ⟨haligned.owner?_counterpart hg hh howner,
        (haligned.key?_counterpart hg hh hattached).trans hkey⟩
  | none =>
      rw [Option.map_none, Option.eq_none_iff_forall_ne_some]
      intro e he
      have hshown := hh.mem_roster_of_lookup he
      obtain ⟨e', he', hroster⟩ := haligned (hg.locate_address hcontainer)
      obtain rfl := Option.some.inj (hlocated.symm.trans he')
      rw [hroster] at hshown
      obtain ⟨member, hmember⟩ := hg.exists_lookup_of_mem_roster hshown
      rw [hfound] at hmember
      contradiction

/-- Companions of counterparts are counterparts. -/
theorem companion?_counterpart {id : DeclId} (hid : g.isAttached id) :
    h.companion? (counterpart g h id) = (g.companion? id).map (counterpart g h) := by
  have hkey := haligned.key?_counterpart hg hh hid
  obtain rfl | ⟨container, howner⟩ := isAttached_iff_owned.mp hid
  · rw [hh.companion?_eq_lookup, hg.companion?_eq_lookup,
      counterpart_of_unowned hg.owner?_root, hh.owner?_root, hg.owner?_root]
    rfl
  · rw [hh.companion?_eq_lookup, hg.companion?_eq_lookup, howner,
      haligned.owner?_counterpart hg hh howner, hkey, Option.bind_some, Option.bind_some]
    cases (g.key? id).bind Key.partner? with
    | none => rfl
    | some partner =>
        exact haligned.lookup_counterpart hg hh (hg.isSome_key?_of_owner? howner) partner

/-- Aligned graphs whose containers agree under a view are renumberings of each other under that
view. -/
theorem renumbering {view : Decl → Decl} (hview : ∀ decl, decl.key? = none → view decl = decl)
    (hheader : ∀ {address id e}, g.locate address = some id → h.locate address = some e →
      h.header? e = (g.header? id).map view) : Renumbering view g h (counterpart g h) where
  root := counterpart_of_unowned hg.owner?_root
  bijOn := haligned.bijOn_counterpart hg hh
  header := by
    intro d hd
    cases hkey : g.key? d with
    | some key =>
        have hcontainer : (g.key? d).isSome := Option.isSome_of_eq_some hkey
        exact hheader (hg.locate_address hcontainer)
          (haligned.locate_counterpart hg hh hcontainer)
    | none =>
        -- Neither of the two is the root, which has a key.
        obtain rfl | ⟨container, howner⟩ := isAttached_iff_owned.mp hd
        · rw [hg.key?_root] at hkey
          contradiction
        · obtain ⟨e, -, hstub, -⟩ := haligned.exists_counterpart hg howner
          rw [header?, get?_eq_of_stub?_eq hstub hkey, header?]
          cases hdecl : g.get? d with
          | none => rfl
          | some decl =>
              have hleaf : decl.key? = none := by
                rwa [Graph.key?, hdecl, Option.bind_some] at hkey
              simp [hview _ ((Decl.key?_header decl).trans hleaf)]
  members := haligned.memberIds_counterpart hg hh
  companion := haligned.companion?_counterpart hg hh

end Aligned

end Graph
end DeclGraph
