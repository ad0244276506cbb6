import DeclGraph.Graph.Path
import DeclGraph.Proofs.Coherence
import DeclGraph.Graph.Forest
import Mathlib.Data.List.Nodup
import Mathlib.Data.List.Perm.Subperm

/-!
# Reading a coherent graph

A coherent graph is read off from its root without fail.  The forest below the root
lists every attached declaration once, and the members of each container stand in
it in their order.  Upwards, the lineage of a declaration is that of its owner and
the declaration itself.

Main results:

- Theorem `Coherent.exists_forest`: the members of a container can be read.
- Theorem `Coherent.nodup_ids`: what is read lists no declaration twice.
- Theorem `Coherent.length_ids_lt`: less is read than there are slots.
- Theorem `Coherent.filter_ids`: the members of a container, picked out of what is
  read, are in their order.
- Theorem `Coherent.mem_ids`: every declaration that has an owner is read.
-/

namespace DeclGraph
namespace Graph

/-! ## Lineages -/

namespace Coherent

variable {g : Graph}

/-- What is owned comes last in its lineage, after its owners. -/
theorem lineage_of_owner? (hg : Coherent g) {container id : DeclId}
    (h : g.owner? id = some container) : g.lineage id = g.lineage container ++ [id] := by
  rw [lineage, if_neg (hg.ne_root_of_owner? h), h]
  simp only [if_pos (hg.owner_lt h)]

end Coherent

/-- What nothing owns stands alone, unless it is the root. -/
theorem lineage_of_unowned {g : Graph} {id : DeclId} (hne : id ≠ root)
    (howner : g.owner? id = none) : g.lineage id = [id] := by
  rw [lineage, if_neg hne]
  simp only [howner]

/-- The lineage of an ancestor is where a lineage begins. -/
theorem lineage_begins {g : Graph} {ancestor id : DeclId} (h : ancestor ∈ g.lineage id) :
    g.lineage ancestor <+: g.lineage id := by
  induction id using lineage.induct g with
  | case1 =>
      rw [lineage_root] at h
      contradiction
  | case2 id hne howner =>
      rw [lineage_of_unowned hne howner, List.mem_singleton] at h
      subst h
      exact List.prefix_refl _
  | case3 id hne owner howner hlt ih =>
      have hlineage : g.lineage id = g.lineage owner ++ [id] := by
        rw [lineage, if_neg hne]
        simp only [howner, if_pos hlt]
      rw [hlineage, List.mem_append, List.mem_singleton] at h
      rcases h with habove | rfl
      · rw [hlineage]
        exact (ih habove).trans (List.prefix_append _ _)
      · exact List.prefix_refl _
  | case4 id hne owner howner hlt =>
      have hlineage : g.lineage id = [id] := by
        rw [lineage, if_neg hne]
        simp only [howner, if_neg hlt]
      rw [hlineage, List.mem_singleton] at h
      subst h
      exact List.prefix_refl _

namespace Coherent

variable {g : Graph}

/-- Of the members of one container at most one is in a lineage. -/
theorem eq_of_mem_lineage (hg : Coherent g) {container a b id : DeclId}
    (ha : g.owner? a = some container) (hb : g.owner? b = some container)
    (haLineage : a ∈ g.lineage id) (hbLineage : b ∈ g.lineage id) : a = b := by
  have haBegins := lineage_begins haLineage
  have hbBegins := lineage_begins hbLineage
  rw [hg.lineage_of_owner? ha] at haBegins
  rw [hg.lineage_of_owner? hb] at hbBegins
  have hsame := List.prefix_of_prefix_length_le haBegins hbBegins (by simp)
  simpa using hsame.eq_of_length (by simp)

/-- An owner of something in a lineage is in that lineage, unless it is the root. -/
theorem owner_mem_lineage (hg : Coherent g) {container member id : DeclId}
    (howner : g.owner? member = some container) (hmember : member ∈ g.lineage id)
    (hattached : (g.owner? container).isSome) : container ∈ g.lineage id := by
  have hbegins := lineage_begins hmember
  rw [hg.lineage_of_owner? howner] at hbegins
  rcases Option.isSome_iff_exists.mp hattached with ⟨above, habove⟩
  apply hbegins.subset
  apply List.mem_append_left
  rw [hg.lineage_of_owner? habove]
  exact List.mem_append_right _ (List.mem_singleton.mpr rfl)

end Coherent

/-! ## Reading forests -/

/-- A forest lists these declarations of a graph, and below each of them its members. -/
inductive Reads (g : Graph) : List DeclId → Forest → Prop
  | nil : Reads g [] .nil
  | cons {id : DeclId} {siblings : List DeclId} {decl : Decl} {below rest : Forest}
      (hdecl : g.get? id = some decl) (hbelow : Reads g (g.memberIds id) below)
      (hrest : Reads g siblings rest) : Reads g (id :: siblings) (.cons id decl below rest)

/-- The members of a container of a coherent graph are read off without fail. -/
theorem Coherent.exists_forest {g : Graph} (hg : Coherent g) {container : DeclId}
    {ids : List DeclId} (h : ∀ id ∈ ids, g.owner? id = some container) :
    ∃ forest, g.forest (container.index + 1) ids = .ok forest ∧ Reads g ids forest := by
  induction hleft : g.size - container.index using Nat.strongRecOn generalizing container ids with
  | ind left ihBelow =>
      induction ids with
      | nil => exact ⟨.nil, forest_nil g _, .nil⟩
      | cons id siblings ihRest =>
          have howner := h id List.mem_cons_self
          have hlater := hg.owner_lt howner
          have hlt := hg.index_lt_of_owner? howner
          rcases exists_get? hlt with ⟨decl, hdecl⟩
          have hmembers : g.memberIds id = decl.memberIds := by simp [memberIds, hdecl]
          rcases ihBelow (g.size - id.index) (by omega)
              (fun member hmember => hg.mem_memberIds.mp hmember) rfl with
            ⟨below, hbelow, hreadsBelow⟩
          rcases ihRest (fun sibling hsibling => h sibling (List.mem_cons_of_mem _ hsibling)) with
            ⟨rest, hrest, hreadsRest⟩
          refine ⟨.cons id decl below rest, ?_, .cons hdecl hreadsBelow hreadsRest⟩
          rw [hmembers] at hbelow
          rw [forest_cons hlater hdecl, hbelow, hrest]
          rfl

/-- What is below a container of a coherent graph can be read. -/
theorem Coherent.exists_reads {g : Graph} (hg : Coherent g) (container : DeclId) :
    ∃ forest, Reads g (g.memberIds container) forest := by
  obtain ⟨forest, -, hreads⟩ :=
    hg.exists_forest fun id (hid : id ∈ g.memberIds container) => hg.mem_memberIds.mp hid
  exact ⟨forest, hreads⟩

/-- There is one way to read what was asked for. -/
theorem Reads.unique {g : Graph} {ids : List DeclId} {forest forest' : Forest}
    (h : Reads g ids forest) (h' : Reads g ids forest') : forest = forest' := by
  induction h generalizing forest' with
  | nil =>
      cases h'
      rfl
  | cons hdecl hbelow hrest ihBelow ihRest =>
      cases h' with
      | cons hdecl' hbelow' hrest' =>
          obtain rfl := Option.some.inj (hdecl.symm.trans hdecl')
          rw [ihBelow hbelow', ihRest hrest']

/-- What is read of the members of a container is what the graph yields for them. -/
theorem Coherent.forest_of_reads {g : Graph} (hg : Coherent g) {container : DeclId}
    {ids : List DeclId} {forest : Forest} (h : ∀ id ∈ ids, g.owner? id = some container)
    (hreads : Reads g ids forest) : g.forest (container.index + 1) ids = .ok forest := by
  rcases hg.exists_forest h with ⟨found, hfound, hfoundReads⟩
  rw [hfound, hfoundReads.unique hreads]

namespace Reads

variable {g : Graph} {ids : List DeclId} {forest : Forest}

/-- What is read begins with the declarations that were asked for, among others. -/
theorem sublist_ids (h : Reads g ids forest) : ids.Sublist forest.ids := by
  induction h with
  | nil => exact List.Sublist.slnil
  | cons hdecl hbelow hrest ihBelow ihRest =>
      exact (ihRest.trans (List.sublist_append_right _ _)).cons_cons _

/-- The members of whatever is read are read after it, in their order. -/
theorem cons_memberIds_sublist_ids (h : Reads g ids forest) {container : DeclId}
    (hcontainer : container ∈ forest.ids) :
    (container :: g.memberIds container).Sublist forest.ids := by
  induction h with
  | nil => contradiction
  | @cons id siblings decl below rest hdecl hbelow hrest ihBelow ihRest =>
      rcases List.mem_cons.mp hcontainer with rfl | hdeeper
      · exact (hbelow.sublist_ids.trans (List.sublist_append_left _ _)).cons_cons _
      · rcases List.mem_append.mp hdeeper with hbelow | hrest
        · exact ((ihBelow hbelow).trans (List.sublist_append_left _ _)).cons _
        · exact ((ihRest hrest).trans (List.sublist_append_right _ _)).cons _

/-- The members of whatever is read are read too, in their order. -/
theorem memberIds_sublist_ids (h : Reads g ids forest) {container : DeclId}
    (hcontainer : container ∈ forest.ids) : (g.memberIds container).Sublist forest.ids :=
  (List.sublist_cons_self _ _).trans (h.cons_memberIds_sublist_ids hcontainer)

/-- Whatever is read was asked for, or its owner is read. -/
theorem mem_or_owner (hg : Coherent g) (h : Reads g ids forest) {id : DeclId}
    (hid : id ∈ forest.ids) : id ∈ ids ∨ ∃ owner ∈ forest.ids, g.owner? id = some owner := by
  induction h with
  | nil => contradiction
  | @cons top siblings decl below rest hdecl hbelow hrest ihBelow ihRest =>
      simp only [Forest.ids, List.mem_cons, List.mem_append] at hid ⊢
      rcases hid with rfl | hid | hid
      · exact Or.inl (Or.inl rfl)
      · right
        rcases ihBelow hid with hmember | ⟨owner, howner, hidOwner⟩
        · exact ⟨top, Or.inl rfl, hg.mem_memberIds.mp hmember⟩
        · exact ⟨owner, Or.inr (Or.inl howner), hidOwner⟩
      · rcases ihRest hid with hsibling | ⟨owner, howner, hidOwner⟩
        · exact Or.inl (Or.inr hsibling)
        · exact Or.inr ⟨owner, Or.inr (Or.inr howner), hidOwner⟩

/-- Something that was asked for is in the lineage of whatever is read. -/
theorem exists_mem_lineage (hg : Coherent g) (h : Reads g ids forest)
    (howned : ∀ id ∈ ids, (g.owner? id).isSome) {id : DeclId} (hid : id ∈ forest.ids) :
    ∃ top ∈ ids, top ∈ g.lineage id := by
  induction h with
  | nil => contradiction
  | @cons top siblings decl below rest hdecl hbelow hrest ihBelow ihRest =>
      have htop := howned top List.mem_cons_self
      simp only [Forest.ids, List.mem_cons, List.mem_append] at hid
      rcases hid with rfl | hid | hid
      · rcases Option.isSome_iff_exists.mp htop with ⟨owner, howner⟩
        refine ⟨id, List.mem_cons_self, ?_⟩
        rw [hg.lineage_of_owner? howner]
        exact List.mem_append_right _ (List.mem_singleton.mpr rfl)
      · have hmembers : ∀ member ∈ g.memberIds top, (g.owner? member).isSome := by
          intro member hmember
          rw [hg.mem_memberIds.mp hmember, Option.isSome_some]
        rcases ihBelow hmembers hid with ⟨member, hmember, hlineage⟩
        exact ⟨top, List.mem_cons_self,
          hg.owner_mem_lineage (hg.mem_memberIds.mp hmember) hlineage htop⟩
      · rcases ihRest (fun sibling hsibling => howned sibling (List.mem_cons_of_mem _ hsibling))
            hid with ⟨sibling, hsibling, hlineage⟩
        exact ⟨sibling, List.mem_cons_of_mem _ hsibling, hlineage⟩

/-- Whatever is read has an owner. -/
theorem isSome_owner? (hg : Coherent g) (h : Reads g ids forest)
    (howned : ∀ id ∈ ids, (g.owner? id).isSome) {id : DeclId} (hid : id ∈ forest.ids) :
    (g.owner? id).isSome := by
  rcases h.mem_or_owner hg hid with hasked | ⟨owner, -, howner⟩
  · exact howned id hasked
  · rw [howner, Option.isSome_some]

/-- Whatever is read is in a slot of the graph. -/
theorem exists_get? (hg : Coherent g) (h : Reads g ids forest)
    (howned : ∀ id ∈ ids, (g.owner? id).isSome) {id : DeclId} (hid : id ∈ forest.ids) :
    ∃ decl, g.get? id = some decl := by
  rcases Option.isSome_iff_exists.mp (h.isSome_owner? hg howned hid) with ⟨owner, howner⟩
  exact Graph.exists_get? (hg.index_lt_of_owner? howner)

end Reads

namespace Coherent

variable {g : Graph} {container : DeclId} {ids : List DeclId} {forest : Forest}

/-- No container is read below itself. -/
theorem not_mem_ids (hg : Coherent g) (h : Reads g (g.memberIds container) forest) :
    container ∉ forest.ids := by
  intro hin
  have howned : ∀ member ∈ g.memberIds container, (g.owner? member).isSome := by
    intro member hmember
    rw [hg.mem_memberIds.mp hmember, Option.isSome_some]
  -- A member would be in the lineage of its container, and that is shorter than its own.
  rcases h.exists_mem_lineage hg howned hin with ⟨member, hmember, hlineage⟩
  have hlength := (lineage_begins hlineage).length_le
  rw [hg.lineage_of_owner? (hg.mem_memberIds.mp hmember)] at hlength
  simp only [List.length_append, List.length_singleton] at hlength
  omega

/-- No declaration is read twice. -/
theorem nodup_ids (hg : Coherent g) (h : Reads g ids forest)
    (howner : ∀ id ∈ ids, g.owner? id = some container) (hnodup : ids.Nodup) :
    forest.ids.Nodup := by
  induction h generalizing container with
  | nil => exact List.nodup_nil
  | @cons id siblings decl below rest hdecl hbelow hrest ihBelow ihRest =>
      have hid := howner id List.mem_cons_self
      have hsiblings : ∀ sibling ∈ siblings, g.owner? sibling = some container :=
        fun sibling hsibling => howner sibling (List.mem_cons_of_mem _ hsibling)
      have hmembers : ∀ member ∈ g.memberIds id, g.owner? member = some id :=
        fun member hmember => hg.mem_memberIds.mp hmember
      rcases List.nodup_cons.mp hnodup with ⟨hfresh, hnodupRest⟩
      have hself : id ∈ g.lineage id := by
        rw [hg.lineage_of_owner? hid]
        exact List.mem_append_right _ (List.mem_singleton.mpr rfl)
      -- What stands beside `id` has one of its siblings in the lineage, and hence not `id`.
      have hbeside : ∀ other ∈ rest.ids, id ∉ g.lineage other := by
        intro other hother hlineage
        rcases hrest.exists_mem_lineage hg
            (fun sibling hsibling => by rw [hsiblings sibling hsibling, Option.isSome_some])
            hother with ⟨sibling, hsibling, hsiblingLineage⟩
        have hsame := hg.eq_of_mem_lineage hid (hsiblings sibling hsibling) hlineage hsiblingLineage
        exact hfresh (hsame ▸ hsibling)
      have hbelowOf : ∀ other ∈ below.ids, ∃ member, g.owner? member = some id ∧
          member ∈ g.lineage other := by
        intro other hother
        rcases hbelow.exists_mem_lineage hg
            (fun member hmember => by rw [hmembers member hmember, Option.isSome_some])
            hother with ⟨member, hmember, hlineage⟩
        exact ⟨member, hmembers member hmember, hlineage⟩
      rw [Forest.ids, List.nodup_cons, List.mem_append, List.nodup_append]
      refine ⟨?_, ihBelow hmembers (hg.nodup_memberIds id), ihRest hsiblings hnodupRest, ?_⟩
      · intro hgiven
        rcases hgiven with hin | hin
        · exact hg.not_mem_ids hbelow hin
        · exact hbeside id hin hself
      · rintro other hother _ hin rfl
        rcases hbelowOf other hother with ⟨member, hmember, hlineage⟩
        exact hbeside other hin
          (hg.owner_mem_lineage hmember hlineage (by rw [hid, Option.isSome_some]))

/-- The members of whatever is read, picked out of everything that is read. -/
theorem filter_ids (hg : Coherent g) (h : Reads g ids forest)
    (howner : ∀ id ∈ ids, g.owner? id = some container) (hnodup : ids.Nodup) {owner : DeclId}
    (hread : (g.memberIds owner).Sublist forest.ids) :
    forest.ids.filter (fun id => g.owner? id = some owner) = g.memberIds owner := by
  have hall := hg.nodup_ids h howner hnodup
  have hkeep : (g.memberIds owner).filter (fun id => g.owner? id = some owner) =
      g.memberIds owner := by
    rw [List.filter_eq_self]
    intro id hid
    simpa using hg.mem_memberIds.mp hid
  have hsublist := hread.filter (fun id => g.owner? id = some owner)
  rw [hkeep] at hsublist
  have hperm : (g.memberIds owner).Perm
      (forest.ids.filter (fun id => g.owner? id = some owner)) := by
    rw [List.perm_ext_iff_of_nodup (hg.nodup_memberIds owner) (hall.filter _)]
    intro id
    rw [List.mem_filter, hg.mem_memberIds]
    constructor
    · intro hid
      exact ⟨hread.subset (hg.mem_memberIds.mpr hid), by simpa using hid⟩
    · intro hgiven
      rcases hgiven with ⟨-, hid⟩
      simpa using hid
  exact (hsublist.eq_of_length hperm.length_eq).symm

/-- From the root every declaration that has an owner is read. -/
theorem mem_ids (hg : Coherent g) (h : Reads g (g.memberIds root) forest) {id owner : DeclId}
    (howner : g.owner? id = some owner) : id ∈ forest.ids := by
  induction hindex : id.index using Nat.strongRecOn generalizing id owner with
  | ind index ih =>
      have hmember := hg.mem_memberIds.mpr howner
      by_cases hroot : owner = root
      · rw [hroot] at hmember
        exact h.sublist_ids.subset hmember
      · have hlt := hg.owner_lt howner
        rcases hg.eq_root_or_owned (hg.isSome_key?_of_owner? howner) with hisRoot | ⟨above, habove⟩
        · exact absurd hisRoot hroot
        have hread := ih owner.index (by omega) habove rfl
        exact (h.memberIds_sublist_ids hread).subset hmember

/-- From the root nothing is read but what has an owner. -/
theorem exists_owner_of_mem_ids (hg : Coherent g) (h : Reads g (g.memberIds root) forest)
    {id : DeclId} (hid : id ∈ forest.ids) : ∃ owner, g.owner? id = some owner := by
  have howned : ∀ member ∈ g.memberIds root, (g.owner? member).isSome := by
    intro member hmember
    rw [hg.mem_memberIds.mp hmember, Option.isSome_some]
  exact Option.isSome_iff_exists.mp (h.isSome_owner? hg howned hid)

/-- Below a container no declaration is read twice, and not the container itself. -/
theorem nodup_cons_ids (hg : Coherent g) (h : Reads g (g.memberIds container) forest) :
    (container :: forest.ids).Nodup :=
  List.nodup_cons.mpr ⟨hg.not_mem_ids h,
    hg.nodup_ids h (fun _ hid => hg.mem_memberIds.mp hid) (hg.nodup_memberIds container)⟩

/-- Below a container less is read than there are slots. -/
theorem length_ids_lt (hg : Coherent g) (h : Reads g (g.memberIds container) forest)
    (hcontainer : (g.key? container).isSome) : forest.ids.length < g.size := by
  have howned : ∀ member ∈ g.memberIds container, (g.owner? member).isSome := by
    intro member hmember
    rw [hg.mem_memberIds.mp hmember, Option.isSome_some]
  have hslots : (container :: forest.ids).map DeclId.index ⊆ List.range g.size := by
    intro index hindex
    rcases List.mem_map.mp hindex with ⟨id, hid, rfl⟩
    rw [List.mem_range]
    rcases List.mem_cons.mp hid with rfl | hread
    · rcases Option.isSome_iff_exists.mp hcontainer with ⟨key, hkey⟩
      exact index_lt_of_key? hkey
    · rcases h.exists_get? hg howned hread with ⟨decl, hdecl⟩
      exact index_lt_of_get? hdecl
  have hnodup : ((container :: forest.ids).map DeclId.index).Nodup :=
    (hg.nodup_cons_ids h).map fun a b hsame => DeclId.eq_of_index_eq hsame
  have hlength := (List.subperm_of_subset hnodup hslots).length_le
  rw [List.length_map, List.length_cons, List.length_range] at hlength
  exact hlength

end Coherent

end Graph
end DeclGraph
