import DeclGraph.Proofs.Renumbering
import DeclGraph.Proofs.Traversals

/-!
# Outlines

What is listed below the root is the forest of its members.  So the outline of the root
has one line for every declaration of that forest, and graphs that differ in the numbers
of their slots only have the same outline.

Main results:

- Theorem `Graph.Coherent.outline_root`: the outline of the root has the lines of its
  forest.
- Theorem `Graph.Renumbering.outline_root`: renumbered graphs have the same outline.
-/

namespace DeclGraph

/-! ## Lines of declarations -/

/-- The line of a declaration does not tell where it is placed. -/
theorem Decl.text_header (decl : Decl) : decl.header.text = decl.text := by
  cases decl <;> rfl

namespace Forest

/-- The outline of a forest, line by line. -/
def lines : Nat → Forest → List String
  | _, nil => []
  | depth, cons _ decl below rest =>
      Graph.outlineLine depth decl :: (below.lines (depth + 1) ++ rest.lines depth)

end Forest

namespace Graph

/-! ## Lines of forests -/

/-- Every declaration of a forest gets its line. -/
theorem Reads.mapM_outlineLine {g : Graph} {ids : List DeclId} {forest : Forest}
    (h : Reads g ids forest) (depth : Nat) :
    (forest.entries depth).mapM (fun (depth, id) => (g.decl id).map (outlineLine depth)) =
      .ok (forest.lines depth) := by
  induction h generalizing depth with
  | nil => rfl
  | @cons id siblings decl below rest hdecl hbelow hrest ihBelow ihRest =>
      have hline : (g.decl id).map (outlineLine depth) = .ok (outlineLine depth decl) := by
        rw [Graph.decl, hdecl]
        rfl
      simp only [Forest.entries, Forest.lines, List.mapM_cons, List.mapM_append, hline, ihBelow,
        ihRest]
      rfl

/-- The outline of the root has the lines of its forest. -/
theorem Coherent.outline_root {g : Graph} (hg : Coherent g) {forest : Forest}
    (hreads : Reads g (g.memberIds root) forest) :
    g.outline root = .ok (String.join (forest.lines 0)) := by
  have hlisted := hg.preorder_eq hg.isSome_key?_root hreads
  have hbind : ∀ {α β : Type} (a : α) (next : α → Except Violation β),
      (Except.ok a >>= next) = next a := fun _ _ => rfl
  rw [outline, hlisted, hbind, hreads.mapM_outlineLine 0]
  rfl

/-! ## Renumbered graphs -/

namespace Renumbering

variable {view : Decl → Decl} {g h : Graph} {image : DeclId → DeclId}
  (hrenumbering : Renumbering view g h image) (hview : ∀ decl, (view decl).text = decl.text)

include hrenumbering hview

/-- A declaration keeps its line. -/
theorem outlineLine_eq {id : DeclId} {decl : Decl} (hid : g.isAttached id)
    (hdecl : g.get? id = some decl) : ∃ decl', h.get? (image id) = some decl' ∧
      ∀ depth, outlineLine depth decl' = outlineLine depth decl := by
  have hheader := hrenumbering.header hid
  rw [header?, header?, hdecl, Option.map_some, Option.map_some] at hheader
  obtain ⟨decl', hdecl', hsame⟩ := Option.map_eq_some_iff.mp hheader
  have htext : decl'.text = decl.text := by
    rw [← decl'.text_header, hsame, hview, decl.text_header]
  have hcompanion : decl'.companion?.isSome = decl.companion?.isSome := by
    have hcompanions := hrenumbering.companion hid
    rw [companion?, companion?, hdecl, hdecl', Option.bind_some, Option.bind_some] at hcompanions
    rw [hcompanions, Option.isSome_map]
  refine ⟨decl', hdecl', fun depth => ?_⟩
  rw [outlineLine, outlineLine, htext, hcompanion]

/-- A forest keeps its lines. -/
theorem exists_reads (hg : Coherent g) {ids : List DeclId} {forest : Forest}
    (hreads : Reads g ids forest) (hids : ∀ id ∈ ids, g.isAttached id) :
    ∃ forest', Reads h (ids.map image) forest' ∧
      ∀ depth, forest'.lines depth = forest.lines depth := by
  induction hreads with
  | nil => exact ⟨.nil, .nil, fun _ => rfl⟩
  | @cons id siblings decl below rest hdecl hbelow hrest ihBelow ihRest =>
      obtain ⟨hid, hsiblings⟩ := List.forall_mem_cons.mp hids
      have hmembers : ∀ member ∈ g.memberIds id, g.isAttached member := fun member hmember =>
        isAttached_iff_owned.mpr (Or.inr ⟨id, hg.mem_memberIds.mp hmember⟩)
      obtain ⟨below', hbelow', hbelowLines⟩ := ihBelow hmembers
      obtain ⟨rest', hrest', hrestLines⟩ := ihRest hsiblings
      obtain ⟨decl', hdecl', hline⟩ := hrenumbering.outlineLine_eq hview hid hdecl
      rw [← hrenumbering.members hid] at hbelow'
      refine ⟨.cons (image id) decl' below' rest', .cons hdecl' hbelow' hrest', fun depth => ?_⟩
      rw [Forest.lines, Forest.lines, hline, hbelowLines, hrestLines]

/-- Renumbered graphs have the same outline. -/
theorem outline_root (hg : Coherent g) (hh : Coherent h) :
    ∃ text, g.outline Graph.root = .ok text ∧ h.outline Graph.root = .ok text := by
  have howned : ∀ id ∈ g.memberIds Graph.root, g.owner? id = some Graph.root := fun id hid =>
    hg.mem_memberIds.mp hid
  obtain ⟨forest, hreads⟩ := hg.exists_reads Graph.root
  obtain ⟨forest', hreads', hlines⟩ := hrenumbering.exists_reads hview hg hreads fun id hid =>
    isAttached_iff_owned.mpr (Or.inr ⟨Graph.root, howned id hid⟩)
  rw [← hrenumbering.members (isAttached_iff_owned.mpr (Or.inl rfl)), hrenumbering.root] at hreads'
  refine ⟨_, hg.outline_root hreads, ?_⟩
  rw [hh.outline_root hreads', hlines]

end Renumbering

end Graph
end DeclGraph
