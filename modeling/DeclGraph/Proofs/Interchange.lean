import Mathlib.Logic.Equiv.Basic
import DeclGraph.Proofs.Frames
import DeclGraph.Proofs.IndexOrder
import DeclGraph.Proofs.Outlines
import DeclGraph.Proofs.Territories

/-!
# Requests that change places

Two requests that are made of different containers can be made in either order.  Each
of them finds its container as it would without the other, and so both are answered
alike in both orders.  Only the numbers of the slots that they fill change places, and
whatever is asked afterwards cannot tell them apart.

Main results:

- Theorem `Graph.Permuted.perform`: a request cannot tell graphs apart that differ in the
  numbers of their slots only.
- Theorem `Graph.Permuted.get?`: such graphs agree slot by slot.
- Theorem `Graph.Coherent.interchange`: requests of different containers can be made in
  either order.
-/

namespace DeclGraph

open DeclGraph.Graph

/-- A request that mentions only what stays in its slot stays what it is. -/
theorem Request.renumber_eq_self {f : DeclId → DeclId} {request : Request} {c : DeclId}
    (htarget : request.target? = some c) (hc : f c = c)
    (hmention : ∀ id, request.mention? = some id → f id = id) : request.renumber f = request := by
  cases request with
  | dropDuplicate container id =>
      obtain rfl := Option.some.inj htarget
      rw [renumber, hc, hmention id rfl]
  | editClass | editObject | editField | editMethod => contradiction
  | _ =>
      obtain rfl := Option.some.inj htarget
      rw [renumber, hc]

namespace Decl

theorem index_renumber (f : DeclId → DeclId) (decl : Decl) :
    (decl.renumber f).index = decl.index.map fun entry => (entry.1, f entry.2) := by
  cases decl <;> rfl

/-- A declaration is what it is without its companion, linked to it. -/
theorem relinked (decl : Decl) :
    (decl.companion?.elim decl.unlinked fun id => decl.unlinked.withCompanion id) = decl := by
  cases decl with
  | klass k =>
      rcases k with ⟨_, _, _, _, _, _ | companion⟩ <;> rfl
  | object o =>
      rcases o with ⟨_, _, _ | companion⟩ <;> rfl
  | _ => rfl

/-- A declaration is nothing but its header, its members, their index and its companion. -/
theorem eq_of_views {a b : Decl} (hheader : a.header = b.header)
    (hmembers : a.memberIds = b.memberIds) (hindex : a.index = b.index)
    (hcompanion : a.companion? = b.companion?) : a = b := by
  have hunlinked : a.unlinked = b.unlinked := by
    rw [unlinked_eq, unlinked_eq, hheader, hmembers, hindex]
  rw [← a.relinked, hcompanion, hunlinked, b.relinked]

end Decl

namespace Graph

/-- Where the keys are the same, an index in other slots is the same index. -/
theorem indexOf_map {g h : Graph} {f : DeclId → DeclId} (hkeys : ∀ id, h.key? (f id) = g.key? id)
    (ids : List DeclId) :
    h.indexOf (ids.map f) = (g.indexOf ids).map fun entry => (entry.1, f entry.2) := by
  have hentry : (fun id => (h.key? id).map fun key => (key, id)) ∘ f = fun id =>
      ((g.key? id).map fun key => (key, id)).map fun entry => (entry.1, f entry.2) := by
    funext id
    simp [hkeys, Function.comp_def]
  rw [indexOf, List.filterMap_map, hentry, indexOf, List.map_reverse, List.map_filterMap]

/-- A request of a container keeps a graph coherent. -/
theorem Coherent.perform {g g' : Graph} (hg : Coherent g) {request : Request} {c : DeclId}
    (htarget : request.target? = some c) {answer : Answer}
    (hrun : request.perform g = .ok answer g') (hsize : g'.size < UInt32.size) : Coherent g' :=
  (Request.outcome hg (Request.admitted_of_target? htarget {} g) hrun).coherent hg hsize

/-- A request of a container keeps every index in the order of the members. -/
theorem Indexed.perform {g g' : Graph} (hindexed : Indexed g) (hg : Coherent g) {request : Request}
    {c : DeclId} (htarget : request.target? = some c) {answer : Answer}
    (hrun : request.perform g = .ok answer g') : Indexed g' :=
  (Request.outcome hg (Request.admitted_of_target? htarget {} g) hrun).indexed hg hindexed

/-! ## Graphs with other slots -/

/-- The graph `h` is the graph `g` with other numbers of its slots. -/
structure Permuted (f : Equiv.Perm DeclId) (g h : Graph) : Prop where
  /-- The two have as many slots. -/
  size : h.size = g.size
  /-- Every slot has its header in its new place. -/
  header? : ∀ id, h.header? (f id) = g.header? id
  /-- Every slot has its members in its new place. -/
  memberIds : ∀ id, h.memberIds (f id) = (g.memberIds id).map f
  /-- Numbers that stand for no slot stay what they are. -/
  unfilled : ∀ {id : DeclId}, g.size ≤ id.index → f id = id

namespace Permuted

variable {f f' : Equiv.Perm DeclId} {g h k : Graph}

theorem refl (g : Graph) : Permuted (Equiv.refl DeclId) g g where
  size := rfl
  header? := fun _ => rfl
  memberIds := fun _ => by simp
  unfilled := fun _ => rfl

theorem trans (hfirst : Permuted f g h) (hsecond : Permuted f' h k) :
    Permuted (f.trans f') g k where
  size := hsecond.size.trans hfirst.size
  header? := fun id => by rw [Equiv.trans_apply, hsecond.header?, hfirst.header?]
  memberIds := fun id => by
    rw [Equiv.trans_apply, hsecond.memberIds, hfirst.memberIds, List.map_map]
    rfl
  unfilled := fun hid => by
    rw [Equiv.trans_apply, hfirst.unfilled hid, hsecond.unfilled (hfirst.size ▸ hid)]

variable (hpermuted : Permuted f g h)

include hpermuted

/-- What is filled stays filled. -/
theorem index_lt {id : DeclId} (hid : id.index < g.size) : (f id).index < g.size := by
  by_contra hle
  have hsame := f.injective (hpermuted.unfilled (Nat.le_of_not_lt hle))
  rw [hsame] at hle
  exact hle hid

theorem stub? (id : DeclId) : h.stub? (f id) = g.stub? id := by
  rw [stub?_eq_header?, hpermuted.header?, stub?_eq_header?]

theorem key? (id : DeclId) : h.key? (f id) = g.key? id := by
  rw [key?_eq_header?, hpermuted.header?, key?_eq_header?]

/-- Every container looks the same. -/
theorem looks (c : DeclId) : Looks f c g h where
  header? := hpermuted.header? c
  memberIds := hpermuted.memberIds c
  stub? := fun member _ => hpermuted.stub? member

theorem nextId (hg : Coherent g) : f g.nextId = h.nextId := by
  rw [hpermuted.unfilled (Nat.le_of_eq (index_nextId hg.size_lt).symm), Graph.nextId, Graph.nextId,
    hpermuted.size]

/-- A request cannot tell where the slots are. -/
theorem perform (hg : Coherent g) (hh : Coherent h) {request : Request} {c : DeclId}
    (htarget : request.target? = some c) {answer : Answer} {g' : Graph}
    (hrun : request.perform g = .ok answer g') :
    ∃ h', (request.renumber f).perform h = .ok (answer.renumber f) h' ∧ Permuted f g' h' := by
  obtain ⟨h', hrun', hfollows⟩ := (hpermuted.looks c).perform f.injective hg hh htarget
    (fun id _ => hpermuted.stub? id) hrun fun _ => hpermuted.nextId hg
  have hgrown := hfollows.size
  have hsize := hpermuted.size
  refine ⟨h', hrun', ?_⟩
  exact {
    size := by omega
    header? := by
      intro id
      by_cases hc : id = c
      · rw [hc, hfollows.looks.header?]
      rcases hfollows.touches.slot_cases hg id with hold | ⟨hmade, rfl⟩ | hbeyond
      · have hold' := hpermuted.index_lt hold
        rw [← hsize] at hold'
        rw [hfollows.touches'.header? (f.injective.ne hc) hold', hfollows.touches.header? hc hold,
          hpermuted.header?]
      · rw [hpermuted.nextId hg, hfollows.header? hmade]
      · rw [hpermuted.unfilled (Nat.le_trans hfollows.touches.size_le hbeyond),
          header?_of_size_le hbeyond, header?_of_size_le (by omega)]
    memberIds := by
      intro id
      by_cases hc : id = c
      · rw [hc, hfollows.looks.memberIds]
      · rw [hfollows.touches'.memberIds (f.injective.ne hc), hfollows.touches.memberIds hc,
          hpermuted.memberIds]
    unfilled := fun hid => hpermuted.unfilled (Nat.le_trans hfollows.touches.size_le hid) }

/-! ### What the slots hold -/

section Slots

variable (hg : Coherent g) (hh : Coherent h)

include hg hh

/-- Owners are in their new places. -/
theorem owner? (id : DeclId) : h.owner? (f id) = (g.owner? id).map f := by
  ext container
  obtain ⟨c, rfl⟩ := f.surjective container
  rw [← hh.mem_memberIds, hpermuted.memberIds, List.mem_map_of_injective f.injective,
    hg.mem_memberIds]
  exact (Option.map_injective f.injective).eq_iff.symm.trans Iff.rfl

/-- What is attached stays attached. -/
theorem isAttached (hroot : f root = root) (id : DeclId) :
    h.isAttached (f id) = g.isAttached id := by
  have hid : f id = root ↔ id = root := by
    rw [← hroot, f.injective.eq_iff, hroot]
  simp [Graph.isAttached, hpermuted.owner? hg hh, hid]

/-- Companions are in their new places. -/
theorem companion? (id : DeclId) : h.companion? (f id) = (g.companion? id).map f := by
  rw [hh.companion?_eq_lookup, hg.companion?_eq_lookup, hpermuted.owner? hg hh, hpermuted.key?,
    Option.bind_map, Option.map_bind]
  congr 1
  funext container
  simp only [Function.comp_apply]
  cases (g.key? id).bind Key.partner? with
  | none => rfl
  | some partner => exact (hpermuted.looks container).lookup hg hh partner

/-- Every slot holds the same declaration, down to the ids that it mentions. -/
theorem get? (hgIndexed : Indexed g) (hhIndexed : Indexed h) (id : DeclId) :
    h.get? (f id) = (g.get? id).map (Decl.renumber f) := by
  have hheader := hpermuted.header? id
  have hmembers := hpermuted.memberIds id
  have hindex : h.index (f id) = (g.index id).map fun entry => (entry.1, f entry.2) := by
    rw [hhIndexed, hmembers, indexOf_map hpermuted.key?, ← hgIndexed]
  have hcompanion := hpermuted.companion? hg hh id
  rw [Graph.header?, Graph.header?] at hheader
  cases hdecl : g.get? id with
  | none =>
      rw [hdecl] at hheader
      exact Option.map_eq_none_iff.mp hheader
  | some decl =>
      rw [hdecl, Option.map_some] at hheader
      obtain ⟨decl', hdecl', hsame⟩ := Option.map_eq_some_iff.mp hheader
      simp only [Graph.memberIds, Graph.index, Graph.companion?, hdecl, hdecl', Option.map_some,
        Option.getD_some, Option.bind_some] at hmembers hindex hcompanion
      rw [hdecl', Option.map_some, Option.some.injEq]
      apply Decl.eq_of_views
      · rw [hsame, Decl.header_renumber]
      · rw [hmembers, Decl.memberIds_renumber]
      · rw [hindex, Decl.index_renumber]
      · rw [hcompanion, Decl.companion?_renumber]

/-- What is attached is renumbered. -/
theorem renumbering (hroot : f root = root) : Renumbering id g h f where
  root := hroot
  bijOn := by
    refine ⟨fun d hd => ?_, f.injective.injOn, fun e he => ?_⟩
    · rw [Set.mem_ofPred_eq, hpermuted.isAttached hg hh hroot]
      exact hd
    · obtain ⟨d, rfl⟩ := f.surjective e
      rw [Set.mem_ofPred_eq, hpermuted.isAttached hg hh hroot] at he
      exact ⟨d, he, rfl⟩
  header := fun _ => by rw [hpermuted.header?, Option.map_id, id_eq]
  members := fun _ => hpermuted.memberIds _
  companion := fun _ => hpermuted.companion? hg hh _

end Slots
end Permuted

/-! ## Two requests -/

section Untouched

variable {f : DeclId → DeclId} {c other : DeclId} {g g' : Graph} (hg : Coherent g)
  (hfixed : ∀ id : DeclId, id.index < g.size → f id = id) (htouches : Touches c g g')
  (hother : other.index < g.size) (hne : other ≠ c)

include hg hfixed

/-- The members of a container stay what they are if the filled slots do. -/
theorem Coherent.map_memberIds (container : DeclId) :
    (g.memberIds container).map f = g.memberIds container :=
  List.map_id'' (fun _ => rfl) _ |>.symm.trans (List.map_congr_left fun member hmember =>
    (hfixed member (hg.index_lt_of_owner? (hg.mem_memberIds.mp hmember))).symm) |>.symm

include htouches hother hne

/-- A container that was not touched looks as before. -/
theorem Touches.looks : Looks f other g g' where
  header? := by rw [hfixed other hother, htouches.header? hne hother]
  memberIds := by rw [hfixed other hother, htouches.memberIds hne, hg.map_memberIds hfixed]
  stub? := by
    intro member hmember
    have hlt := hg.index_lt_of_owner? (hg.mem_memberIds.mp hmember)
    rw [hfixed member hlt, htouches.stub? hlt]

/-- A container that was not touched looked as it does now. -/
theorem Touches.looks_before : Looks f other g' g where
  header? := by rw [hfixed other hother, htouches.header? hne hother]
  memberIds := by rw [hfixed other hother, htouches.memberIds hne, hg.map_memberIds hfixed]
  stub? := by
    intro member hmember
    rw [htouches.memberIds hne] at hmember
    have hlt := hg.index_lt_of_owner? (hg.mem_memberIds.mp hmember)
    rw [hfixed member hlt, htouches.stub? hlt]

end Untouched

/-- The numbers that change places when two requests do: those of the slots that they fill, if each
of them fills one. -/
def exchange (g g₁ g₁₂ : Graph) : Equiv.Perm DeclId :=
  if g.size < g₁.size ∧ g₁.size < g₁₂.size then Equiv.swap g.nextId g₁.nextId
  else Equiv.refl DeclId

section Exchange

variable {g g₁ g₁₂ : Graph}

theorem exchange_of_lt (hg : Coherent g) (hg₁ : Coherent g₁) (hle : g.size ≤ g₁.size) {id : DeclId}
    (hid : id.index < g.size) : exchange g g₁ g₁₂ id = id := by
  unfold exchange
  split
  · exact Equiv.swap_apply_of_ne_of_ne (ne_nextId_of_lt hg.size_lt hid)
      (ne_nextId_of_lt hg₁.size_lt (Nat.lt_of_lt_of_le hid hle))
  · rfl

theorem exchange_of_le (hg : Coherent g) (hg₁ : Coherent g₁) {id : DeclId}
    (hid : g₁₂.size ≤ id.index) : exchange g g₁ g₁₂ id = id := by
  unfold exchange
  split
  · next hboth =>
      apply Equiv.swap_apply_of_ne_of_ne <;> rintro rfl
      · rw [index_nextId hg.size_lt] at hid
        omega
      · rw [index_nextId hg₁.size_lt] at hid
        omega
  · rfl

theorem nextId_congr {g h : Graph} (hsize : h.size = g.size) : h.nextId = g.nextId := by
  rw [nextId, hsize, nextId]

/-- What the second request fills, it fills as the first one. -/
theorem exchange_second (hle : g.size ≤ g₁.size) (hgrown : g₁.size < g₁₂.size) :
    exchange g g₁ g₁₂ g₁.nextId = g.nextId := by
  unfold exchange
  split
  · exact Equiv.swap_apply_right _ _
  · next hnot =>
      exact nextId_congr (Nat.le_antisymm (Nat.not_lt.mp fun hlt => hnot ⟨hlt, hgrown⟩) hle)

/-- What the first request fills, it fills as the second one. -/
theorem exchange_first {g₂ : Graph} (hgrown : g.size < g₁.size) (hone : g₁.size ≤ g.size + 1)
    (hsize : g₂.size + g₁.size = g.size + g₁₂.size) (hle : g₁.size ≤ g₁₂.size)
    (htwo : g₁₂.size ≤ g₁.size + 1) : exchange g g₁ g₁₂ g.nextId = g₂.nextId := by
  unfold exchange
  split
  · rw [Equiv.swap_apply_left]
    exact nextId_congr (by omega)
  · exact nextId_congr (by omega)

end Exchange

/-- Two graphs that went different ways from one graph differ in the numbers of their new slots
only, if in two different containers the same was written both ways. -/
theorem Permuted.of_follows {f : Equiv.Perm DeclId} {g g₁ g₁₂ g₂ g₂₁ : Graph} (hg : Coherent g)
    (hg₁ : Coherent g₁) (hunfilled : ∀ {id : DeclId}, g₁₂.size ≤ id.index → f id = id)
    (hfixed : ∀ id : DeclId, id.index < g.size → f id = id)
    (hnext₂ : g₁.size < g₁₂.size → f g₁.nextId = g.nextId)
    (hnext₁ : g.size < g₁.size → f g.nextId = g₂.nextId) {c d : DeclId} (hne : c ≠ d)
    (hc : c.index < g.size) (hd : d.index < g.size) (hfollows₂ : Follows f d g₁ g₁₂ g g₂)
    (hfollows₁ : Follows f c g g₁ g₂ g₂₁) : Permuted f g₁₂ g₂₁ := by
  have htouched₁ := hfollows₁.touches
  have htouched₂ := hfollows₂.touches
  have htouched₁' := hfollows₁.touches'
  have htouched₂' := hfollows₂.touches'
  rw [hfixed c hc] at htouched₁'
  rw [hfixed d hd] at htouched₂'
  have hgrown₁ := htouched₁.size
  have hgrown₂ := htouched₂.size
  have hsize₁ := hfollows₁.size
  have hsize₂ := hfollows₂.size
  have hnew : ∀ {id e : DeclId}, e.index < g.size → id ≠ e → f id ≠ e := by
    intro id e he hid hsame
    rw [← hfixed e he] at hsame
    exact hid (f.injective hsame)
  exact {
    size := by omega
    header? := by
      intro id
      by_cases hidC : id = c
      · rw [hidC, hfollows₁.looks.header?, htouched₂.header? hne (by omega)]
      by_cases hidD : id = d
      · rw [hidD, ← hfollows₂.looks.header?, hfixed d hd, htouched₁'.header? hne.symm (by omega)]
      -- The other slots were there before, or one of the requests filled them, or none did.
      rcases htouched₂.slot_cases hg₁ id with hfilled | ⟨hmade, rfl⟩ | hbeyond
      · rcases htouched₁.slot_cases hg id with hold | ⟨hmade, rfl⟩ | hbeyond
        · rw [hfixed id hold, htouched₁'.header? hidC (by omega), htouched₂'.header? hidD hold,
            htouched₂.header? hidD hfilled, htouched₁.header? hidC hold]
        · rw [htouched₂.header? hidD hfilled, hnext₁ hmade, hfollows₁.header? hmade]
        · exact absurd hfilled (Nat.not_lt.mpr hbeyond)
      · have hlt : g.nextId.index < g₂.size := by
          rw [index_nextId hg.size_lt]
          omega
        rw [hnext₂ hmade, htouched₁'.header? (ne_nextId_of_lt hg.size_lt hc).symm hlt,
          hfollows₂.header? hmade]
      · rw [hunfilled hbeyond, header?_of_size_le hbeyond, header?_of_size_le (by omega)]
    memberIds := by
      intro id
      by_cases hidC : id = c
      · rw [hidC, hfollows₁.looks.memberIds, htouched₂.memberIds hne]
      by_cases hidD : id = d
      · have hlooks := hfollows₂.looks.memberIds
        rw [hfixed d hd] at hlooks
        rw [hidD, hfixed d hd, htouched₁'.memberIds hne.symm, hlooks]
      rw [htouched₁'.memberIds (hnew hc hidC), htouched₂'.memberIds (hnew hd hidD),
        htouched₂.memberIds hidD, htouched₁.memberIds hidC, hg.map_memberIds hfixed]
      by_cases hold : id.index < g.size
      · rw [hfixed id hold]
      · have hbeyond : g.size ≤ (f id).index := by
          by_contra hlt
          have hsame := f.injective (hfixed (f id) (Nat.lt_of_not_le hlt))
          rw [hsame] at hlt
          omega
        rw [memberIds_of_size_le hbeyond, memberIds_of_size_le (Nat.le_of_not_lt hold)]
    unfilled := hunfilled }

/-- **Requests of different containers can be made in either order.**  They are answered alike, and
what they leave behind differs in the numbers of the new slots only. -/
theorem Coherent.interchange {g g₁ g₁₂ : Graph} (hg : Coherent g) (hg₁ : Coherent g₁)
    {first second : Request} {c d : DeclId} (hfirst : first.target? = some c)
    (hsecond : second.target? = some d) (hne : c ≠ d) (hc : c.index < g.size)
    (hd : d.index < g.size) (hmention₁ : ∀ id, first.mention? = some id → id.index < g.size)
    (hmention₂ : ∀ id, second.mention? = some id → id.index < g.size) {answer₁ answer₂ : Answer}
    (hrun₁ : first.perform g = .ok answer₁ g₁) (hrun₂ : second.perform g₁ = .ok answer₂ g₁₂)
    (hsize : g₁₂.size < UInt32.size) :
    ∃ (f : Equiv.Perm DeclId) (g₂ g₂₁ : Graph), (∀ id : DeclId, id.index < g.size → f id = id) ∧
      second.perform g = .ok (answer₂.renumber f) g₂ ∧
      first.perform g₂ = .ok (answer₁.renumber f) g₂₁ ∧ Permuted f g₁₂ g₂₁ := by
  have htouched₁ := hg.touches hfirst hrun₁
  have htouched₂ := hg₁.touches hsecond hrun₂
  have hgrown₁ := htouched₁.size
  have hgrown₂ := htouched₂.size
  let f := exchange g g₁ g₁₂
  have hfixed : ∀ id : DeclId, id.index < g.size → f id = id := fun id hid =>
    exchange_of_lt hg hg₁ htouched₁.size_le hid
  -- The second request finds its container as it is without the first one.
  obtain ⟨g₂, hrun₂', hfollows₂⟩ := (htouched₁.looks_before hg hfixed hd hne.symm).perform
    f.injective hg₁ hg hsecond
    (fun id hid => by rw [hfixed id (hmention₂ id hid), htouched₁.stub? (hmention₂ id hid)]) hrun₂
    (exchange_second htouched₁.size_le)
  rw [Request.renumber_eq_self hsecond (hfixed d hd) fun id hid => hfixed id (hmention₂ id hid)]
    at hrun₂'
  have hsize₂ := hfollows₂.size
  have hg₂ := hg.perform hsecond hrun₂' (by omega)
  have htouched₂' := hfollows₂.touches'
  rw [hfixed d hd] at htouched₂'
  -- And the first one finds its container as it was before the second one.
  obtain ⟨g₂₁, hrun₁', hfollows₁⟩ := (htouched₂'.looks hg hfixed hc hne).perform
    f.injective hg hg₂ hfirst
    (fun id hid => by rw [hfixed id (hmention₁ id hid), htouched₂'.stub? (hmention₁ id hid)]) hrun₁
    (fun hgrown => exchange_first hgrown (by omega) hsize₂ htouched₂.size_le (by omega))
  rw [Request.renumber_eq_self hfirst (hfixed c hc) fun id hid => hfixed id (hmention₁ id hid)]
    at hrun₁'
  have hpermuted := Permuted.of_follows hg hg₁ (fun hid => exchange_of_le hg hg₁ hid) hfixed
    (exchange_second htouched₁.size_le)
    (fun hgrown => exchange_first hgrown (by omega) hsize₂ htouched₂.size_le (by omega)) hne hc hd
    hfollows₂ hfollows₁
  exact ⟨f, g₂, g₂₁, hfixed, hrun₂', hrun₁', hpermuted⟩

end Graph
end DeclGraph
