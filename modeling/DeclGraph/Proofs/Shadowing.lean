import DeclGraph.Proofs.IndexScan
import DeclGraph.Proofs.References

/-!
# Shadowed containers

A path is read upwards by names and resolved downwards by names.  Where a container
has a sibling of its name and of a kind that is taken first, the way down goes past it,
and whatever the path leads to then, it is not in this container.  Besides this, reading
and resolving undo each other.

Main results:

- Theorem `Graph.Coherent.enter?_eq_some_iff`: one step down leads to a member unless it
  is shadowed.
- Theorem `Graph.Coherent.resolve?_path_eq_some_iff`: the path of a container leads to it
  unless it or a container that it is in is shadowed.
- Theorem `Built.pathLaw`: paths are read and resolved in accordance in every built graph.
-/

namespace DeclGraph

/-- The kinds that are taken before this one on the way down a path. -/
def Kind.ahead : Kind → List Kind
  | klass => [package]
  | object => [package, klass]
  | _ => []

/-- Only containers are taken first or passed by. -/
theorem Kind.isContainer_of_mem_ahead {a b : Kind} (h : a ∈ b.ahead) :
    a.isContainer = true ∧ b.isContainer = true := by
  cases b <;> simp [ahead] at h
  · exact ⟨h ▸ rfl, rfl⟩
  · rcases h with rfl | rfl <;> exact ⟨rfl, rfl⟩

/-- No kind is taken before itself. -/
theorem Kind.not_mem_ahead (kind : Kind) : kind ∉ kind.ahead := by
  cases kind <;> decide

namespace Graph

/-! ## Siblings that are taken first -/

/-- Another member of the container has the same name and is of a kind that is taken first. -/
def Shadowed (g : Graph) (id : DeclId) : Prop :=
  ∃ container sibling kind siblingKind name, g.Lists container id ∧ g.Lists container sibling ∧
    g.declares kind name id = true ∧ g.declares siblingKind name sibling = true ∧
    siblingKind ∈ kind.ahead

namespace Coherent

variable {g : Graph} (hg : Coherent g)

include hg

/-- A member is shadowed if its container has indexed its name under a kind that is taken first. -/
theorem shadowed_iff {container id : DeclId} {kind : Kind} {name : Name}
    (howner : g.owner? id = some container) (hkey : g.key? id = some (kind, name)) :
    g.Shadowed id ↔ ∃ siblingKind ∈ kind.ahead, g.lookup container (siblingKind, name) ≠ none := by
  constructor
  · rintro ⟨above, sibling, idKind, siblingKind, idName, hid, hsibling, hidDeclares,
      hsiblingDeclares, hahead⟩
    obtain ⟨hsiblingContainer, hidContainer⟩ := Kind.isContainer_of_mem_ahead hahead
    obtain rfl := Option.some.inj ((hg.lists_iff.mp hid).symm.trans howner)
    have hsame := ((declares_iff_key? hidContainer).mp hidDeclares).symm.trans hkey
    obtain ⟨rfl, rfl⟩ := Prod.mk.inj (Option.some.inj hsame)
    refine ⟨siblingKind, hahead, ?_⟩
    rw [hg.lookup_eq_some.mpr ⟨hg.lists_iff.mp hsibling,
      (declares_iff_key? hsiblingContainer).mp hsiblingDeclares⟩]
    exact Option.some_ne_none sibling
  · rintro ⟨siblingKind, hahead, hfound⟩
    obtain ⟨hsiblingContainer, hidContainer⟩ := Kind.isContainer_of_mem_ahead hahead
    obtain ⟨sibling, hsibling⟩ := Option.ne_none_iff_exists'.mp hfound
    obtain ⟨hsiblingOwner, hsiblingKey⟩ := hg.lookup_eq_some.mp hsibling
    exact ⟨container, sibling, kind, siblingKind, name, hg.lists_iff.mpr howner,
      hg.lists_iff.mpr hsiblingOwner, (declares_iff_key? hidContainer).mpr hkey,
      (declares_iff_key? hsiblingContainer).mpr hsiblingKey, hahead⟩

/-- One step down leads to a member unless it is shadowed. -/
theorem enter?_eq_some_iff {container id : DeclId} {kind : Kind} {name : Name}
    (howner : g.owner? id = some container) (hkey : g.key? id = some (kind, name)) :
    g.enter? container name = some id ↔ ¬ g.Shadowed id := by
  have hfound : g.lookup container (kind, name) = some id := hg.lookup_eq_some.mpr ⟨howner, hkey⟩
  -- Under another kind the container has indexed another member, if any.
  have hother : ∀ other ≠ kind, g.lookup container (other, name) ≠ some id := by
    intro other hne hlookup
    have hsame := (hg.lookup_eq_some.mp hlookup).2.symm.trans hkey
    exact hne (Prod.mk.inj (Option.some.inj hsame)).1
  rw [hg.shadowed_iff howner hkey, enter?_eq, Option.or_eq_some_iff, Option.or_eq_some_iff]
  cases kind with
  | package => simp [hfound, Kind.ahead]
  | klass => simp [hfound, Kind.ahead, hother .package]
  | object => simp [hfound, Kind.ahead, hother .package, hother .klass]
  | _ =>
      obtain ⟨decl, -, hdeclKey⟩ := Option.bind_eq_some_iff.mp hkey
      exact absurd (isContainer_of_key? hdeclKey) Bool.false_ne_true

theorem not_shadowed_root : ¬ g.Shadowed root := by
  rintro ⟨container, -, -, -, -, hroot, -⟩
  exact hg.ne_root_of_owner? (hg.lists_iff.mp hroot) rfl

theorem eq_root_of_within_root {above : DeclId} (h : g.Within above root) : above = root := by
  rcases Relation.ReflTransGen.cases_tail h with hsame | ⟨container, -, hlists⟩
  · exact hsame.symm
  · exact absurd rfl (hg.ne_root_of_owner? (hg.lists_iff.mp hlists))

/-- What a member is within is the member itself or what its container is within. -/
theorem within_iff {container id : DeclId} (howner : g.owner? id = some container)
    {above : DeclId} : g.Within above id ↔ above = id ∨ g.Within above container := by
  constructor
  · intro h
    rcases Relation.ReflTransGen.cases_tail h with rfl | ⟨owner, habove, hlists⟩
    · exact Or.inl rfl
    · obtain rfl := Option.some.inj ((hg.lists_iff.mp hlists).symm.trans howner)
      exact Or.inr habove
  · rintro (rfl | habove)
    · exact .refl
    · exact habove.tail (hg.lists_iff.mpr howner)

/-- The path of a container leads to it unless it or a container that it is in is shadowed. -/
theorem resolve?_path_eq_some_iff {id : DeclId} (hid : (g.key? id).isSome) :
    g.resolve? (g.path id) = some id ↔ ∀ above, g.Within above id → ¬ g.Shadowed above := by
  -- By induction on the age of the container, as owners are older.
  induction hindex : id.index using Nat.strongRecOn generalizing id with
  | ind index ih =>
      obtain rfl | ⟨container, howner⟩ := hg.eq_root_or_owned hid
      · simp only [path_root, resolve?_root, true_iff]
        intro above hwithin
        rw [hg.eq_root_of_within_root hwithin]
        exact hg.not_shadowed_root
      · have hlt := hg.owner_lt howner
        obtain ⟨⟨kind, name⟩, hkey⟩ := Option.isSome_iff_exists.mp hid
        have habove := ih container.index (by omega) (hg.isSome_key?_of_owner? howner) rfl
        have hstep : g.resolve? (g.path id) = some id ↔
            g.resolve? (g.path container) = some container ∧ ¬ g.Shadowed id := by
          rw [path_of_owner? hg howner hkey, ← hg.enter?_eq_some_iff howner hkey]
          constructor
          · intro h
            -- Whatever the path of the container leads to has `id` as its member.
            obtain ⟨found, -, hfound, hfoundOwner, -⟩ := hg.of_resolve?_child h
            obtain rfl := Option.some.inj (hfoundOwner.symm.trans howner)
            rw [resolve?_child, hfound, Option.bind_some] at h
            exact ⟨hfound, h⟩
          · rintro ⟨hcontainer, henter⟩
            rw [resolve?_child, hcontainer, Option.bind_some, henter]
        rw [hstep, habove]
        constructor
        · rintro ⟨hclear, hid⟩ above hwithin
          obtain rfl | hcontainer := (hg.within_iff howner).mp hwithin
          · exact hid
          · exact hclear above hcontainer
        · intro hclear
          exact ⟨fun above hwithin => hclear above ((hg.within_iff howner).mpr (Or.inr hwithin)),
            hclear id .refl⟩

end Coherent

/-- How paths are read and resolved. -/
structure PathLaw (g : Graph) : Prop where
  /-- A path leads to nothing but an attached container of that path. -/
  resolved : ∀ {path : Path} {id : DeclId}, g.resolve? path = some id →
    g.isAttached id = true ∧ (g.scope? id).isSome ∧ g.path id = path
  /-- The path of an attached container leads to it exactly if neither the container nor one that it
  is in, up to the root, has a sibling that is taken first. -/
  refound : ∀ {id : DeclId}, g.isAttached id = true → (g.scope? id).isSome →
    (g.resolve? (g.path id) = some id ↔
      ∀ above, g.Within above id → above ≠ root → ¬ g.Shadowed above)

end Graph

open DeclGraph.Graph

/-- Paths are read and resolved in accordance in every graph that is built. -/
theorem Built.pathLaw {naming : Naming} {record : Record} {g : Graph}
    (h : Built naming record g) : PathLaw g where
  resolved := by
    intro path id hid
    obtain ⟨hkey, hpath⟩ := h.coherent.path_of_resolve? hid
    refine ⟨isAttached_iff_owned.mpr (h.coherent.eq_root_or_owned hkey), ?_, hpath⟩
    rwa [isSome_scope?_iff]
  refound := by
    intro id _ hid
    rw [isSome_scope?_iff] at hid
    rw [h.coherent.resolve?_path_eq_some_iff hid]
    constructor
    · intro hclear above hwithin _
      exact hclear above hwithin
    · intro hclear above hwithin
      by_cases hroot : above = root
      · rw [hroot]
        exact h.coherent.not_shadowed_root
      · exact hclear above hwithin hroot

/-- A class in an object that is shadowed by the class of its name. -/
theorem pathLaw_of_namesakes : ∃ record g, Built issuedName record g ∧
    g.path ⟨3⟩ = ⟨[⟨"C"⟩, ⟨"D"⟩]⟩ ∧ g.path ⟨4⟩ = ⟨[⟨"C"⟩, ⟨"D"⟩]⟩ ∧
    g.resolve? ⟨[⟨"C"⟩, ⟨"D"⟩]⟩ = some ⟨4⟩ ∧ PathLaw g := by
  have hbuilt := built_played [.object root ⟨"C"⟩, .klass root ⟨"C"⟩, .klass ⟨1⟩ ⟨"D"⟩,
    .klass ⟨2⟩ ⟨"D"⟩] rfl
  exact ⟨_, _, hbuilt, by decide +kernel, by decide +kernel, by decide +kernel,
    Built.pathLaw hbuilt⟩

end DeclGraph
