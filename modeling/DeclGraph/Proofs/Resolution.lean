import DeclGraph.Proofs.Addresses
import DeclGraph.Proofs.Shadowing

/-!
# Resolving paths across a merge

A path is resolved by names, and a container is found by its path as long as nothing
beside it, or beside a container that it is in, has its name and another kind.  Where
that is so, resolving commutes with merging: the path that a merge sends a path to is
the path of what its container became, and that path leads to it.

Main results:

- Theorem `Graph.Coherent.resolve?_path`: in an unambiguous graph the path of a
  container leads to it.
- Theorem `Graph.Merging.clear_of_unambiguous`: in an unambiguous graph the renamed
  containers are told apart by their paths.
- Theorem `Built.resolve?_merged`: resolving commutes with merging where it is
  unambiguous.
-/

namespace DeclGraph
namespace Graph

/-! ## Unambiguous graphs -/

/-- No container holds two packages, classes or objects of one name and different kinds. -/
def Unambiguous (g : Graph) : Prop :=
  ∀ {container a b : DeclId} {kind kind' : Kind} {name : Name}, g.owner? a = some container →
    g.owner? b = some container → g.key? a = some (kind, name) → g.key? b = some (kind', name) →
    kind = kind'

/-- A graph is unambiguous if in every member list the names tell the kinds. -/
theorem unambiguous_of_forall {g : Graph} (hg : Coherent g)
    (h : ∀ decl ∈ g.decls.toList, ∀ a ∈ decl.memberIds.filterMap g.key?,
      ∀ b ∈ decl.memberIds.filterMap g.key?, a.2 = b.2 → a.1 = b.1) : Unambiguous g := by
  intro container a b kind kind' name haOwner hbOwner haKey hbKey
  have ha := hg.mem_memberIds.mpr haOwner
  have hb := hg.mem_memberIds.mpr hbOwner
  unfold memberIds at ha hb
  cases hdecl : g.get? container with
  | none => simp [hdecl] at ha
  | some decl =>
      rw [hdecl] at ha hb
      exact h decl (mem_decls_of_get? hdecl) (kind, name) (List.mem_filterMap.mpr ⟨a, ha, haKey⟩)
        (kind', name) (List.mem_filterMap.mpr ⟨b, hb, hbKey⟩) rfl

namespace Coherent

variable {g : Graph} (hg : Coherent g) (hclear : Unambiguous g)

include hg hclear

/-- Nothing is shadowed where names tell the kinds. -/
theorem not_shadowed_of_unambiguous (id : DeclId) : ¬ g.Shadowed id := by
  rintro ⟨container, sibling, kind, siblingKind, name, hid, hsibling, hidDeclares,
    hsiblingDeclares, hahead⟩
  obtain ⟨hsiblingContainer, hidContainer⟩ := Kind.isContainer_of_mem_ahead hahead
  have hsame := hclear (hg.lists_iff.mp hsibling) (hg.lists_iff.mp hid)
    ((declares_iff_key? hsiblingContainer).mp hsiblingDeclares)
    ((declares_iff_key? hidContainer).mp hidDeclares)
  rw [hsame] at hahead
  exact Kind.not_mem_ahead kind hahead

/-- The path of a container leads to it. -/
theorem resolve?_path {id : DeclId} (hid : (g.key? id).isSome) :
    g.resolve? (g.path id) = some id :=
  (hg.resolve?_path_eq_some_iff hid).mpr fun above _ => hg.not_shadowed_of_unambiguous hclear above

end Coherent

/-! ## Merges -/

namespace Merging

variable {g other merged : Graph} {forest : Forest} {log : List Arrival}
  (hm : Merging g other merged forest log)

include hm

/-- Where paths are unambiguous, the path of every renamed container leads to it. -/
theorem clear_of_unambiguous (hclear : Unambiguous other) {entry : Renaming}
    (hentry : entry ∈ g.planned other forest) :
    other.resolve? entry.fromPath = some entry.source := by
  obtain ⟨_, _, _, _, _, hkey, _, _, _, _, hfrom, _⟩ := hm.mem_planned_iff_shifted.mp hentry
  rw [hfrom]
  exact hm.other_coherent.resolve?_path hclear (Option.isSome_of_eq_some hkey)

/-- The path that an incoming path is sent to leads to what its container became. -/
theorem resolve?_follow (hclear : Unambiguous other) (hmerged : Unambiguous merged) {path : Path}
    {d : DeclId} (hd : other.resolve? path = some d) :
    merged.resolve? ((g.planned other forest).follow path) = some (imageIn log d) := by
  have hkey := (hm.other_coherent.path_of_resolve? hd).1
  rw [hm.follow_eq_path (fun _ hentry => hm.clear_of_unambiguous hclear hentry) hd]
  exact hm.merged_coherent.resolve?_path hmerged (hm.isSome_key?_image hkey)

/-- A path that led to a container leads to it still. -/
theorem resolve?_kept (hmerged : Unambiguous merged) {path : Path} {c : DeclId}
    (hc : g.resolve? path = some c) : merged.resolve? path = some c := by
  obtain ⟨hkey, hpath⟩ := hm.coherent.path_of_resolve? hc
  obtain ⟨key, hcKey⟩ := Option.isSome_iff_exists.mp hkey
  have hthere : (merged.key? c).isSome := by
    rwa [(hm.logged.key?_old hm.coherent (index_lt_of_key? hcKey)).1]
  rw [← hpath, ← hm.path_old hkey]
  exact hm.merged_coherent.resolve?_path hmerged hthere

end Merging

end Graph

open DeclGraph.Graph

/-- Merging graphs goes through, as long as there are slots for what comes in.  If the incoming
graph and the result are unambiguous, a path that leads to a container of the incoming graph is sent
to a path that leads to what the container became, and every path that led to a container before
leads to it still. -/
theorem Built.resolve?_merged {naming : Naming} {record otherRecord : Record} {g other : Graph}
    (hg : Built naming record g) (hother : Built naming otherRecord other)
    (hsize : ((Graph.merge other).final g).size < UInt32.size) (hclear : Unambiguous other)
    (hmergedClear : Unambiguous ((Graph.merge other).final g)) :
    ∃ merged plan image, Graph.merge other g = .ok () merged ∧
      Transfer g other merged plan image ∧
      (∀ path d, other.resolve? path = some d →
        merged.resolve? (plan.follow path) = some (image d)) ∧
      ∀ path c, g.resolve? path = some c → merged.resolve? path = some c := by
  obtain ⟨merged, forest, log, hmerge, hm⟩ := hg.exists_merging hother hsize
  rw [Build.final_of_ok hmerge] at hmergedClear
  refine ⟨merged, _, _, hmerge, hm.transfer, ?_, ?_⟩
  · intro path d hd
    exact hm.resolve?_follow hclear hmergedClear hd
  · intro path c hc
    exact hm.resolve?_kept hmergedClear hc

/-- A class in an anonymous class, merged into a graph where the number of the anonymous class is
shifted and the class keeps its name. -/
theorem resolve?_merged_of_nested : ∃ record otherRecord g other, Built issuedName record g ∧
    Built issuedName otherRecord other ∧ Unambiguous other ∧
    other.resolve? ⟨[⟨"C"⟩, ⟨"anon$1"⟩, ⟨"D"⟩]⟩ = some ⟨3⟩ ∧
    ∃ merged plan image, Graph.merge other g = .ok () merged ∧
      Transfer g other merged plan image ∧
      (∀ path d, other.resolve? path = some d →
        merged.resolve? (plan.follow path) = some (image d)) ∧
      ∀ path c, g.resolve? path = some c → merged.resolve? path = some c := by
  have hg := built_played [.klass root ⟨"C"⟩, .issueName ⟨1⟩, .klass ⟨1⟩ ⟨"anon$1"⟩] rfl
  have hother := built_played [.klass root ⟨"C"⟩, .issueName ⟨1⟩, .klass ⟨1⟩ ⟨"anon$1"⟩,
    .klass ⟨2⟩ ⟨"D"⟩] rfl
  have hclear : Unambiguous _ := unambiguous_of_forall hother.coherent (by decide +kernel)
  obtain ⟨merged, -, -, hmerge, -⟩ := hg.exists_merging hother (by decide +kernel)
  obtain rfl := Build.final_of_ok hmerge
  have hmerged := hg.merge hother hmerge (by decide +kernel)
  have hmergedClear : Unambiguous _ := unambiguous_of_forall hmerged.coherent (by decide +kernel)
  exact ⟨_, _, _, _, hg, hother, hclear, by decide +kernel,
    Built.resolve?_merged hg hother (by decide +kernel) hclear hmergedClear⟩

end DeclGraph
