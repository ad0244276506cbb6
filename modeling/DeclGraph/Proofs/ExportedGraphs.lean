import DeclGraph.Proofs.ExportReader
import DeclGraph.Proofs.IndexOrder

/-!
# What an exported graph tells

The index of a scope is not exported.  In a graph that is built it need not be, since it
can be made anew from the members.  A built graph is therefore determined by its
exported text, and any other graph is determined but for its indexes.

Main results:

- Theorem `Graph.reindexed_unindexed`: indexes in the order of the members can be made
  anew.
- Theorem `Built.json_tells`: what the exported text of a graph tells.
-/

namespace DeclGraph

/-! ## Making indexes anew -/

/-- A declaration gets its index back if that can be told from the members. -/
theorem Decl.mapScope_unindexed {decl : Decl} {indexOf : List DeclId → List (Key × DeclId)}
    (h : decl.index = indexOf decl.memberIds) : (decl.unindexed.mapScope fun scope =>
      { scope with index := indexOf scope.members }) = decl := by
  cases decl <;> first
    | rfl
    | simp only [Decl.index, Decl.memberIds, Decl.scope?, Option.map_some, Option.getD_some] at h
      simp [Decl.unindexed, Decl.mapScope, Scope.unindexed, ← h]

namespace Graph

/-- A graph with all its indexes made anew. -/
def reindexed (g : Graph) : Graph :=
  { g with decls := g.decls.map (Decl.mapScope fun scope =>
      { scope with index := g.indexOf scope.members }) }

theorem get?_unindexed (g : Graph) (id : DeclId) :
    g.unindexed.get? id = (g.get? id).map Decl.unindexed := by
  simp [get?, unindexed]

/-- Keys are not part of the indexes. -/
theorem key?_unindexed (g : Graph) (id : DeclId) : g.unindexed.key? id = g.key? id := by
  rw [key?, get?_unindexed, key?]
  cases g.get? id with
  | none => rfl
  | some decl => cases decl <;> rfl

/-- Indexes in the order of the members can be made anew. -/
theorem reindexed_unindexed {g : Graph} (hg : Indexed g) (hsize : g.size < UInt32.size) :
    g.unindexed.reindexed = g := by
  have hindexOf : g.unindexed.indexOf = g.indexOf := by
    funext ids
    exact indexOf_congr fun id _ => key?_unindexed g id
  have hdecls : g.unindexed.reindexed.decls = g.decls := by
    apply Array.ext_getElem?
    intro i
    rw [reindexed, hindexOf, unindexed, Array.getElem?_map, Array.getElem?_map]
    cases hdecl : g.decls[i]? with
    | none => rfl
    | some decl =>
        have hlt : i < g.size := (Array.getElem?_eq_some_iff.mp hdecl).1
        have hget : g.get? (DeclId.ofIndex i) = some decl := by
          rw [get?, DeclId.index_ofIndex, Nat.mod_eq_of_lt (Nat.lt_trans hlt hsize), hdecl]
        have hindex := hg (DeclId.ofIndex i)
        rw [index, memberIds, hget] at hindex
        rw [Option.map_some, Option.map_some, Decl.mapScope_unindexed hindex]
  rw [show g.unindexed.reindexed = ⟨g.unindexed.reindexed.decls, g.owners⟩ from rfl, hdecls]

end Graph

open DeclGraph.Graph

/-! ## Texts of graphs -/

/-- **What an exported graph tells.**  Every graph is read back from its text, but for its indexes,
and so graphs with one text are alike in all that is declared, in their owners and in their root.
Built graphs with one text are equal, since their indexes can be made anew from the members. -/
theorem Built.json_tells :
    (∀ g : Graph, Graph.ofText g.json = some (g.unindexed, Graph.root)) ∧
      (∀ g h : Graph, g.json = h.json →
        g.decls.map Decl.unindexed = h.decls.map Decl.unindexed ∧ g.owners = h.owners) ∧
      (∀ {naming : Naming} {record : Record} {g : Graph}, Built naming record g →
        g.unindexed.reindexed = g) ∧
      ∀ {naming naming' : Naming} {record record' : Record} {g h : Graph}, Built naming record g →
        Built naming' record' h → g.json = h.json → g = h := by
  have hunindexed : ∀ {g h : Graph}, g.json = h.json → g.unindexed = h.unindexed := by
    intro g h hjson
    have hread := Graph.ofText_json g
    rw [hjson, Graph.ofText_json h] at hread
    exact (congrArg Prod.fst (Option.some.inj hread)).symm
  have hreindexed : ∀ {naming : Naming} {record : Record} {g : Graph}, Built naming record g →
      g.unindexed.reindexed = g :=
    fun hg => Graph.reindexed_unindexed hg.indexed hg.coherent.size_lt
  refine ⟨Graph.ofText_json, ?_, hreindexed, ?_⟩
  · intro g h hjson
    have howners : g.unindexed.owners = h.unindexed.owners := by rw [hunindexed hjson]
    exact ⟨congrArg Graph.decls (hunindexed hjson), howners⟩
  · intro naming naming' record record' g h hg hh hjson
    rw [← hreindexed hg, hunindexed hjson, hreindexed hh]

/-- A class with its object, a method that was taken out, and a name with a quotation mark. -/
theorem json_tells_of_companions : ∃ record g, Built issuedName record g ∧
    g.find? .object root ⟨"C"⟩ = .ok (some ⟨4⟩) ∧
    (Graph.ofText g.json).map (fun read => (read.1.reindexed, read.2)) = some (g, root) ∧
    ∀ {record' : Record} {h : Graph}, Built issuedName record' h → g.json = h.json → g = h := by
  have hbuilt := built_played [.klass root ⟨"C"⟩, .method ⟨1⟩ ⟨"say \x22"⟩,
    .method ⟨1⟩ ⟨"say \x22"⟩, .object root ⟨"C"⟩, .dropDuplicate ⟨1⟩ ⟨3⟩] rfl
  refine ⟨_, _, hbuilt, by decide +kernel, ?_, Built.json_tells.2.2.2 hbuilt⟩
  rw [Built.json_tells.1, Option.map_some, Built.json_tells.2.2.1 hbuilt]

end DeclGraph
