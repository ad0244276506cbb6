import DeclGraph.Graph.Traversal
import DeclGraph.Proofs.Ownership

/-!
# Traversals

What is below a container is listed in two ways.  The listing in pre-order keeps what is
still to come on a stack and goes on until the stack is empty; the events of a visit follow
the member lists from container to container.  Both end, as the member lists of a coherent
graph make a forest, and both come to every declaration below the container once, in one
order.  The depth that the listing gives is the number of containers that are open when the
visit comes to the declaration, the one that was visited first not counted.

Main results:

- Theorem `Graph.Reads.lists`: a traversal with a forest on its stack lists the forest.
- Theorem `Graph.Coherent.preorder_eq` and Theorem `Graph.Coherent.events_eq`: the listing and
  the visit of a container go over the same forest.
- Theorem `Graph.Coherent.mem_ids_iff_below`: what they go over is what is below the container.
- Theorem `Built.traversals`: listing, visit and table of owners agree in every built graph.
-/

namespace DeclGraph

/-! ## Events -/

namespace Event

/-- Every container that is entered is left again, and what is entered in between is left before. -/
inductive Nested : List Event → Prop
  | nil : Nested []
  | leaf (id : DeclId) (decl : Decl) {rest : List Event} (hrest : Nested rest) :
      Nested (.leaf id decl :: rest)
  | body (id : DeclId) (decl : Decl) {inner rest : List Event} (hinner : Nested inner)
      (hrest : Nested rest) : Nested (.enter id decl :: (inner ++ .leave id decl :: rest))

/-- The containers that are open after an event, the innermost first. -/
def after (opened : List DeclId) : Event → List DeclId
  | enter id _ => id :: opened
  | leave _ _ => opened.tail
  | leaf _ _ => opened

/-- The declarations that a visit comes to, each with the containers that are open then. -/
def arrivals : List DeclId → List Event → List (List DeclId × DeclId)
  | _, [] => []
  | opened, event :: rest =>
    (event.arrival?.map fun id => (opened, id)).toList ++ arrivals (event.after opened) rest

/-- An event shows what is in its slot; containers are entered and left, and all else is passed. -/
def Shows (g : Graph) : Event → Prop
  | enter id decl | leave id decl => g.get? id = some decl ∧ decl.isContainer = true
  | leaf id decl => g.get? id = some decl ∧ decl.isContainer = false

theorem Nested.append {first second : List Event} (hfirst : Nested first)
    (hsecond : Nested second) : Nested (first ++ second) := by
  induction hfirst with
  | nil => exact hsecond
  | leaf id decl _ ih => exact .leaf id decl ih
  | body id decl hinner _ _ ih =>
      rw [List.cons_append, List.append_assoc, List.cons_append]
      exact .body id decl hinner ih

/-- The arrivals by the number of containers that are open then. -/
def depths (opened : List DeclId) (events : List Event) : List (Nat × DeclId) :=
  (arrivals opened events).map fun (opened, id) => (opened.length, id)

end Event

namespace Forest

/-- The declarations of a forest in pre-order, each with its depth. -/
def entries : Nat → Forest → List (Nat × DeclId)
  | _, nil => []
  | depth, cons id _ below rest => (depth, id) :: (below.entries (depth + 1) ++ rest.entries depth)

theorem map_snd_entries (forest : Forest) (depth : Nat) :
    (forest.entries depth).map Prod.snd = forest.ids := by
  induction forest generalizing depth with
  | nil => rfl
  | cons id decl below rest ihBelow ihRest => simp [entries, ids, ihBelow, ihRest]

/-- The depths count from the depth of the trees. -/
theorem entries_succ (forest : Forest) (depth : Nat) :
    forest.entries (depth + 1) = (forest.entries depth).map (Prod.map (· + 1) id) := by
  induction forest generalizing depth with
  | nil => rfl
  | cons id decl below rest ihBelow ihRest => simp [entries, ihBelow, ihRest]

/-- The visit of a forest leaves what it enters. -/
theorem nested_events (forest : Forest) : Event.Nested forest.events := by
  induction forest with
  | nil => exact .nil
  | cons id decl below rest ihBelow ihRest =>
      rw [events, around]
      split
      · rw [List.cons_append, List.append_assoc, List.singleton_append]
        exact .body id decl ihBelow ihRest
      · rw [List.cons_append]
        exact .leaf id decl (ihBelow.append ihRest)

end Forest

/-! ## Listings that go to their end -/

namespace Traversal

/-- Step by step the traversal lists these entries, and then there is nothing more to come. -/
inductive Lists (g : Graph) : Traversal → List (Nat × DeclId) → Prop
  | done {traversal : Traversal} (h : traversal.next? g = none) : Lists g traversal []
  | step {traversal next : Traversal} {entry : Nat × DeclId} {entries : List (Nat × DeclId)}
      (h : traversal.next? g = some (entry, next)) (hnext : Lists g next entries) :
      Lists g traversal (entry :: entries)

/-- With steps enough a traversal is carried to its end. -/
theorem Lists.take {g : Graph} {traversal : Traversal} {entries : List (Nat × DeclId)}
    (h : Lists g traversal entries) {steps : Nat} (hsteps : entries.length ≤ steps) :
    traversal.take g steps = entries := by
  induction h generalizing steps with
  | done h => cases steps <;> simp [Traversal.take, h]
  | step h _ ih =>
      cases steps with
      | zero => simp at hsteps
      | succ steps => simp [Traversal.take, h, ih (Nat.le_of_succ_le_succ hsteps)]

end Traversal

namespace Graph

namespace Reads

variable {g : Graph} {ids : List DeclId} {forest : Forest}

/-- A traversal lists a forest that is on its stack, and goes on with what is below it there. -/
theorem lists (h : Reads g ids forest) (depth : Nat) {pending entries : List (Nat × DeclId)}
    (hpending : Traversal.Lists g ⟨pending⟩ entries) :
    Traversal.Lists g ⟨ids.map (fun id => (depth, id)) ++ pending⟩
      (forest.entries depth ++ entries) := by
  induction h generalizing depth pending entries with
  | nil => exact hpending
  | @cons id siblings decl below rest hdecl hbelow hrest ihBelow ihRest =>
      rw [List.map_cons, List.cons_append, Forest.entries, List.cons_append, List.append_assoc]
      exact .step (Traversal.next?_cons g depth id _) (ihBelow (depth + 1) (ihRest depth hpending))

/-- Below what is no container nothing is read. -/
theorem eq_nil_of_not_isContainer {id : DeclId} {decl : Decl} (hdecl : g.get? id = some decl)
    (hleaf : ¬ decl.isContainer = true) (h : Reads g (g.memberIds id) forest) : forest = .nil := by
  have hkey : g.key? id = none := by
    rw [key?, hdecl, Option.bind_some, ← Option.not_isSome_iff_eq_none, Decl.isSome_key?]
    exact hleaf
  rw [memberIds_of_key?_eq_none hkey] at h
  cases h
  rfl

/-- A visit comes to a declaration of a forest when as many containers are open as its depth
says. -/
theorem depths_events (h : Reads g ids forest) (opened : List DeclId) (rest : List Event) :
    Event.depths opened (forest.events ++ rest) =
      forest.entries opened.length ++ Event.depths opened rest := by
  induction h generalizing opened rest with
  | nil => rfl
  | @cons id siblings decl below beside hdecl hbelow hrest ihBelow ihRest =>
      rw [Forest.events, Forest.around, Forest.entries]
      split
      · have hinner := ihBelow (id :: opened) (.leave id decl :: (beside.events ++ rest))
        have hleft : Event.depths (id :: opened) (.leave id decl :: (beside.events ++ rest)) =
            Event.depths opened (beside.events ++ rest) := rfl
        rw [hleft, ihRest] at hinner
        simp only [List.cons_append, List.append_assoc, List.length_cons] at hinner ⊢
        rw [← hinner]
        rfl
      · next hleaf =>
          obtain rfl := eq_nil_of_not_isContainer hdecl hleaf hbelow
          have hbeside := ihRest opened rest
          simp only [Forest.events, Forest.entries, List.cons_append, List.nil_append] at hbeside ⊢
          rw [← hbeside]
          rfl

/-- The events of a forest show what is in the graph. -/
theorem shows_of_mem_events (h : Reads g ids forest) {event : Event}
    (hevent : event ∈ forest.events) : event.Shows g := by
  induction h with
  | nil => contradiction
  | @cons id siblings decl below rest hdecl hbelow hrest ihBelow ihRest =>
      rw [Forest.events, List.mem_append] at hevent
      rcases hevent with hevent | hevent
      · rw [Forest.around] at hevent
        split at hevent
        · next hcontainer =>
            simp only [List.mem_cons, List.mem_append, List.not_mem_nil, or_false] at hevent
            rcases hevent with rfl | hevent | rfl
            · exact ⟨hdecl, hcontainer⟩
            · exact ihBelow hevent
            · exact ⟨hdecl, hcontainer⟩
        · next hleaf =>
            rcases List.mem_cons.mp hevent with rfl | hevent
            · exact ⟨hdecl, by simpa using hleaf⟩
            · exact ihBelow hevent
      · exact ihRest hevent

/-- Whatever is read stands within one of the declarations that were asked for. -/
theorem exists_within (hg : Coherent g) (h : Reads g ids forest) {id : DeclId}
    (hid : id ∈ forest.ids) : ∃ top ∈ ids, g.Within top id := by
  induction h with
  | nil => contradiction
  | @cons top siblings decl below rest hdecl hbelow hrest ihBelow ihRest =>
      simp only [Forest.ids, List.mem_cons, List.mem_append] at hid
      rcases hid with rfl | hid | hid
      · exact ⟨id, List.mem_cons_self, .refl⟩
      · obtain ⟨member, hmember, hwithin⟩ := ihBelow hid
        exact ⟨top, List.mem_cons_self,
          .head (hg.lists_iff.mpr (hg.mem_memberIds.mp hmember)) hwithin⟩
      · obtain ⟨sibling, hsibling, hwithin⟩ := ihRest hid
        exact ⟨sibling, List.mem_cons_of_mem _ hsibling, hwithin⟩

/-- Whatever stands within something that is read is read too. -/
theorem mem_ids_of_within (hg : Coherent g) (h : Reads g ids forest) {above id : DeclId}
    (habove : above ∈ forest.ids) (hwithin : g.Within above id) : id ∈ forest.ids := by
  induction hwithin with
  | refl => exact habove
  | tail _ hlists ih =>
      exact (h.memberIds_sublist_ids ih).subset (hg.mem_memberIds.mpr (hg.lists_iff.mp hlists))

end Reads

namespace Coherent

variable {g : Graph} (hg : Coherent g) {container : DeclId} {forest : Forest}

include hg

/-- What is read of the members of a container is what is below it. -/
theorem mem_ids_iff_below (h : Reads g (g.memberIds container) forest) {id : DeclId} :
    id ∈ forest.ids ↔ g.Below container id := by
  rw [Below, Relation.TransGen.head'_iff]
  constructor
  · intro hid
    obtain ⟨member, hmember, hwithin⟩ := h.exists_within hg hid
    exact ⟨member, hg.lists_iff.mpr (hg.mem_memberIds.mp hmember), hwithin⟩
  · rintro ⟨member, hlists, hwithin⟩
    have hmember := h.sublist_ids.subset (hg.mem_memberIds.mpr (hg.lists_iff.mp hlists))
    exact h.mem_ids_of_within hg hmember hwithin

/-- The listing of a container goes to its end and lists the forest of its members. -/
theorem preorder_eq (hcontainer : (g.key? container).isSome)
    (h : Reads g (g.memberIds container) forest) :
    g.preorder container = .ok (forest.entries 0) := by
  have hlists := h.lists 0 (Traversal.Lists.done (Traversal.next?_nil g))
  rw [List.append_nil, List.append_nil] at hlists
  -- There are more slots than declarations below the container, so no step is missing.
  have hlength : (forest.entries 0).length ≤ g.size := by
    rw [← List.length_map Prod.snd, Forest.map_snd_entries]
    exact Nat.le_of_lt (hg.length_ids_lt h hcontainer)
  rw [preorder, members_eq_ok_iff.mpr ⟨hcontainer, rfl⟩, Except.map, hlists.take hlength]

/-- The visit of a container enters it, goes over the forest of its members, and leaves it. -/
theorem events_eq {decl : Decl} (hdecl : g.get? container = some decl)
    (h : Reads g (g.memberIds container) forest) :
    g.events container = .ok (Forest.cons container decl forest .nil).events := by
  have hmembers : g.memberIds container = decl.memberIds := by simp [memberIds, hdecl]
  have hforest := hg.forest_of_reads (fun _ hid => hg.mem_memberIds.mp hid) h
  rw [hmembers] at hforest
  rw [events, forest_cons (Nat.zero_le _) hdecl, hforest, forest_nil]
  rfl

end Coherent

/-! ## The table of owners -/

/-- The slots stand in the order of their numbers. -/
theorem map_index_slots {g : Graph} (h : g.size < UInt32.size) :
    g.slots.map (fun slot => slot.1.index) = List.range g.size := by
  have hindex : ∀ entry ∈ g.decls.toList.zipIdx, (DeclId.ofIndex entry.2).index = entry.2 := by
    intro entry hentry
    have hlt := List.snd_lt_of_mem_zipIdx hentry
    rw [DeclId.index_ofIndex, Nat.mod_eq_of_lt]
    rw [Array.length_toList] at hlt
    exact Nat.lt_trans hlt h
  rw [slots, List.map_map]
  calc g.decls.toList.zipIdx.map _
    _ = g.decls.toList.zipIdx.map Prod.snd := List.map_congr_left hindex
    _ = List.range g.size := by
      rw [List.zipIdx_map_snd, Array.length_toList, ← List.range_eq_range', size]

/-- Every slot stands there with what it holds. -/
theorem mem_slots_iff {g : Graph} (h : g.size < UInt32.size) {id : DeclId} {decl : Decl} :
    (id, decl) ∈ g.slots ↔ g.get? id = some decl := by
  simp only [slots, List.mem_map]
  constructor
  · rintro ⟨⟨found, index⟩, hmem, hsame⟩
    obtain ⟨rfl, rfl⟩ := Prod.mk.inj hsame
    have hfound := List.mk_mem_zipIdx_iff_getElem?.mp hmem
    have hlt : index < g.size := by
      rw [Array.getElem?_toList] at hfound
      exact (Array.getElem?_eq_some_iff.mp hfound).1
    rwa [get?, DeclId.index_ofIndex, Nat.mod_eq_of_lt (Nat.lt_trans hlt h), ← Array.getElem?_toList]
  · intro hid
    refine ⟨(decl, id.index), List.mk_mem_zipIdx_iff_getElem?.mpr ?_, ?_⟩
    · rwa [Array.getElem?_toList]
    · rw [DeclId.ofIndex_index]

namespace Coherent

variable {g : Graph} (hg : Coherent g)

include hg

theorem pairwise_attached : g.attached.Pairwise fun a b => a.1.index < b.1.index := by
  have hslots : g.slots.Pairwise fun a b => a.1.index < b.1.index := by
    rw [← List.pairwise_map, map_index_slots hg.size_lt]
    exact List.pairwise_lt_range
  exact hslots.filter _

/-- The attached declarations are the root and what is below it. -/
theorem perm_attached {forest : Forest} (h : Reads g (g.memberIds root) forest) :
    (g.attached.map Prod.fst).Perm (root :: forest.ids) := by
  have hnodup : (g.attached.map Prod.fst).Nodup := by
    rw [List.Nodup, List.pairwise_map]
    refine hg.pairwise_attached.imp fun hlt hsame => ?_
    rw [hsame] at hlt
    exact Nat.lt_irrefl _ hlt
  rw [List.perm_ext_iff_of_nodup hnodup (hg.nodup_cons_ids h)]
  intro id
  rw [List.mem_cons, List.mem_map]
  constructor
  · rintro ⟨⟨found, decl⟩, hmem, rfl⟩
    rcases isAttached_iff_owned.mp (List.mem_filter.mp hmem).2 with hroot | ⟨owner, howner⟩
    · exact Or.inl hroot
    · exact Or.inr (hg.mem_ids h howner)
  · intro hid
    have hattached : g.isAttached id = true :=
      isAttached_iff_owned.mpr (hid.imp_right (hg.exists_owner_of_mem_ids h))
    have hlt : id.index < g.size := by
      rcases hid with rfl | hid
      · exact index_lt_of_key? hg.key?_root
      · obtain ⟨owner, howner⟩ := hg.exists_owner_of_mem_ids h hid
        exact hg.index_lt_of_owner? howner
    obtain ⟨decl, hdecl⟩ := Graph.exists_get? hlt
    exact ⟨(id, decl), List.mem_filter.mpr ⟨(mem_slots_iff hg.size_lt).mpr hdecl, hattached⟩, rfl⟩

end Coherent

/-- What is listed and visited of a container. -/
structure Traversed (g : Graph) (container : DeclId) (listed : List (Nat × DeclId))
    (events : List Event) : Prop where
  /-- With its members on the stack the listing goes on to its end. -/
  ends : ∃ ids, g.members container = .ok ids ∧
    Traversal.Lists g ⟨ids.map fun id => (0, id)⟩ listed
  /-- Nothing is listed twice. -/
  once : (listed.map Prod.snd).Nodup
  /-- What is listed is what is below the container. -/
  mem_iff : ∀ id, id ∈ listed.map Prod.snd ↔ g.Below container id
  /-- Every container comes before its members, and these in their order. -/
  ordered : ∀ {above : DeclId} {ids : List DeclId}, g.Within container above →
    g.members above = .ok ids → (above :: ids).Sublist (container :: listed.map Prod.snd)
  /-- What is entered is left. -/
  nested : Event.Nested events
  /-- The events show what is in the slots. -/
  shows : ∀ event ∈ events, event.Shows g
  /-- The visit comes to the container and then to what is listed, in that order. -/
  arrival : events.filterMap Event.arrival? = container :: listed.map Prod.snd
  /-- The depth of what is listed and one more is the number of containers that are open then. -/
  depth : Event.depths [] events = (0, container) :: listed.map (Prod.map (· + 1) id)

/-- A container of a coherent graph is listed and visited without fail. -/
theorem Coherent.exists_traversed {g : Graph} (hg : Coherent g) {container : DeclId}
    (hcontainer : (g.key? container).isSome) : ∃ listed events,
      g.preorder container = .ok listed ∧ g.events container = .ok events ∧
        Traversed g container listed events := by
  obtain ⟨forest, hreads⟩ := hg.exists_reads container
  obtain ⟨key, hkey⟩ := Option.isSome_iff_exists.mp hcontainer
  obtain ⟨decl, hdecl, -⟩ := Option.bind_eq_some_iff.mp hkey
  have htree : Reads g [container] (.cons container decl forest .nil) := .cons hdecl hreads .nil
  have hids := Forest.map_snd_entries forest 0
  refine ⟨_, _, hg.preorder_eq hcontainer hreads, hg.events_eq hdecl hreads, ?_⟩
  constructor
  · have hlists := hreads.lists 0 (Traversal.Lists.done (Traversal.next?_nil g))
    rw [List.append_nil, List.append_nil] at hlists
    exact ⟨_, members_eq_ok_iff.mpr ⟨hcontainer, rfl⟩, hlists⟩
  · rw [hids]
    exact (List.nodup_cons.mp (hg.nodup_cons_ids hreads)).2
  · intro id
    rw [hids, hg.mem_ids_iff_below hreads]
  · intro above ids hwithin hmembers
    rw [hids, (members_eq_ok_iff.mp hmembers).2]
    have hread := htree.mem_ids_of_within hg List.mem_cons_self hwithin
    simpa [Forest.ids] using htree.cons_memberIds_sublist_ids hread
  · exact Forest.nested_events _
  · exact fun event => htree.shows_of_mem_events
  · rw [Forest.ids_events, hids]
    simp [Forest.ids]
  · have hdepths := htree.depths_events [] []
    simpa [Forest.entries, Event.depths, Event.arrivals, Forest.entries_succ] using hdepths

end Graph

open DeclGraph.Graph

/-- Listing and visit of every container agree in every graph that is built, and from the root they
come to what the table of owners calls attached. -/
theorem Built.traversals {naming : Naming} {record : Record} {g : Graph}
    (h : Built naming record g) :
    (∀ container, (g.scope? container).isSome → ∃ listed events,
      g.preorder container = .ok listed ∧ g.events container = .ok events ∧
        Traversed g container listed events) ∧
    ∃ listed, g.preorder root = .ok listed ∧
      (g.attached.map Prod.fst).Perm (root :: listed.map Prod.snd) ∧
      (g.attached.Pairwise fun a b => a.1.index < b.1.index) ∧
      ∀ slot ∈ g.attached, g.get? slot.1 = some slot.2 := by
  have hg := h.coherent
  refine ⟨fun container hcontainer => hg.exists_traversed (isSome_scope?_iff.mp hcontainer), ?_⟩
  obtain ⟨forest, hreads⟩ := hg.exists_reads root
  refine ⟨_, hg.preorder_eq hg.isSome_key?_root hreads, ?_, hg.pairwise_attached, ?_⟩
  · rw [Forest.map_snd_entries]
    exact hg.perm_attached hreads
  · intro slot hslot
    exact (mem_slots_iff hg.size_lt).mp (List.mem_filter.mp hslot).1

/-- A class with a field and a method below a package, with a method that was taken out. -/
theorem traversals_of_class : ∃ record g, Built issuedName record g ∧
    g.preorder root = .ok [(0, ⟨1⟩), (1, ⟨2⟩), (2, ⟨3⟩), (2, ⟨5⟩), (0, ⟨6⟩)] ∧
    (∀ container, (g.scope? container).isSome → ∃ listed events,
      g.preorder container = .ok listed ∧ g.events container = .ok events ∧
        Traversed g container listed events) ∧
    ∃ listed, g.preorder root = .ok listed ∧
      (g.attached.map Prod.fst).Perm (root :: listed.map Prod.snd) ∧
      (g.attached.Pairwise fun a b => a.1.index < b.1.index) ∧
      ∀ slot ∈ g.attached, g.get? slot.1 = some slot.2 := by
  have hbuilt := built_played [.package root ⟨"p"⟩, .klass ⟨1⟩ ⟨"C"⟩, .method ⟨2⟩ ⟨"m"⟩,
    .method ⟨2⟩ ⟨"m"⟩, .field ⟨2⟩ ⟨"x"⟩, .object root ⟨"O"⟩, .dropDuplicate ⟨2⟩ ⟨4⟩] rfl
  exact ⟨_, _, hbuilt, by decide +kernel, Built.traversals hbuilt⟩

end DeclGraph
