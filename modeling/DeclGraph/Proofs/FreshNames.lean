import DeclGraph.Proofs.Merging
import DeclGraph.Proofs.IssuedNames

/-!
# Fresh names

A container remembers nothing of the names that it issued but their number.  That is
enough: the numbers of all names that it ever issued, and of all anonymous classes and
objects in it, are at most its count, also of those that merges have brought in.  The
next name has the next number, and so it is new.

Main results:

- Theorem `Graph.exists_issueName`: a container issues a name as long as it has one
  left.
- Theorem `Built.nodup_issued`: no container issues one name twice.
- Theorem `Built.issueName_fresh`: the next name is carried by no class or object in
  the container and was not issued by it before.
-/

namespace DeclGraph
namespace Graph

/-- A container issues a name as long as it has one left, and the number of that name is the next
one. -/
theorem exists_issueName {g : Graph} {container : DeclId} (hcontainer : (g.key? container).isSome)
    (hleft : (g.issued container).toNat + 1 < UInt32.size) :
    ∃ g', issueName container g = .ok (Name.anonymous (g.issued container + 1)) g' := by
  obtain ⟨scope, hscope, -, hissued, -⟩ := exists_scope hcontainer
  have hunspent : g.unspentScope container = .ok scope := by
    unfold unspentScope
    rw [issuingScope_of_scope hscope]
    rw [hissued] at hleft
    exact if_pos hleft
  refine ⟨g.modify container (Decl.mapScope Scope.issue), ?_⟩
  rw [issueName, Build.checked_of_ok hunspent, hissued]
  rfl

end Graph

open DeclGraph.Graph

/-! ## The next number is new -/

/-- The number after the count of a container is greater than the count, until 32 bits run out. -/
private theorem not_next_le {issued : UInt32} (hleft : issued.toNat + 1 < UInt32.size) :
    ¬ (issued + 1).toNat ≤ issued.toNat := by
  have hnext : (issued + 1).toNat = issued.toNat + 1 := by
    rw [UInt32.toNat_add]
    exact Nat.mod_eq_of_lt hleft
  omega

namespace NamesKept

variable {record : Record} {g : Graph} {container : DeclId} (hkept : NamesKept record g)
  (hleft : (g.issued container).toNat + 1 < UInt32.size)

include hkept hleft

/-- The next name is not among the names that the container issued. -/
theorem next_not_recorded :
    (container, Name.anonymous (g.issued container + 1)) ∉ record.issued := by
  intro hin
  obtain ⟨k, hname, hle, -⟩ := hkept.recorded container _ hin
  rw [← Name.anonymous_injective hname] at hle
  exact not_next_le hleft hle

/-- The next name is not the name of a class or object in the container. -/
theorem next_not_held {id : DeclId} {key : Key} (howner : g.owner? id = some container)
    (hkey : g.key? id = some key) (hkind : key.1 ≠ .package) :
    key.2 ≠ Name.anonymous (g.issued container + 1) := by
  intro hname
  have hindex : key.2.anonymousIndex? = some (g.issued container + 1) := by
    rw [hname, Name.anonymousIndex?_anonymous]
  exact not_next_le hleft (hkept.held howner hkey hkind hindex).2.1

end NamesKept

/-! ## Whole runs -/

/-- No outcome of a request records one name of one container twice. -/
private theorem Outcome.nodup_issued {record record' : Record} {g g' : Graph}
    (h : Outcome issuedName record g record' g') (hkept : NamesKept record g)
    (hnodup : record.issued.Nodup) : record'.issued.Nodup := by
  cases h with
  | issued _ hleft => exact List.nodup_cons.mpr ⟨hkept.next_not_recorded hleft, hnodup⟩
  | found => exact hnodup
  | enlisted => exact hnodup
  | edited => exact hnodup
  | removed => exact hnodup

/-- No container issues one name twice, whatever is merged into the graph in between. -/
theorem Built.nodup_issued {record : Record} {g : Graph} (h : Built issuedName record g) :
    record.issued.Nodup := by
  induction h with
  | new => exact List.nodup_nil
  | request hbuilt hadmitted hrun _ ih =>
      exact (Request.outcome hbuilt.coherent hadmitted hrun).nodup_issued hbuilt.namesKept ih
  | merge _ _ _ _ ih _ => exact ih

/-- The next name that a container issues is carried by no class or object in it, and is not a name
that it issued before. -/
theorem Built.issueName_fresh {record : Record} {g : Graph} {container : DeclId}
    (h : Built issuedName record g) (hcontainer : (g.key? container).isSome)
    (hleft : (g.issued container).toNat + 1 < UInt32.size) :
    ∃ name g', Graph.issueName container g = .ok name g' ∧
      (∀ ids id decl, g.members container = .ok ids → id ∈ ids → g.get? id = some decl →
        decl.kind = .klass ∨ decl.kind = .object → decl.name? ≠ some name) ∧
      (container, name) ∉ record.issued := by
  obtain ⟨g', hissue⟩ := exists_issueName hcontainer hleft
  refine ⟨_, g', hissue, ?_, h.namesKept.next_not_recorded hleft⟩
  intro ids id decl hids hid hdecl hkind hname
  have howner : g.owner? id = some container := by
    apply h.coherent.mem_memberIds.mp
    rwa [memberIds_of_members hids]
  have hkey : g.key? id = some (decl.kind, Name.anonymous (g.issued container + 1)) := by
    rw [Graph.key?, hdecl, Option.bind_some]
    cases decl with
    | klass k => exact congrArg (fun name => some (Kind.klass, name)) (Option.some.inj hname)
    | object o => exact congrArg (fun name => some (Kind.object, name)) (Option.some.inj hname)
    | _ => simp [Decl.kind] at hkind
  refine h.namesKept.next_not_held hleft howner hkey ?_ rfl
  intro hpackage
  obtain hklass | hobject := hkind
  · cases hklass.symm.trans hpackage
  · cases hobject.symm.trans hpackage

/-- A class that has issued a name, and into which a class with an anonymous object was merged. -/
theorem issueName_fresh_after_merge : ∃ record g, Built issuedName record g ∧
    record.issued = [(⟨1⟩, Name.anonymous 1)] ∧ g.issued ⟨1⟩ = 2 ∧
    g.key? ⟨3⟩ = some (.object, Name.anonymous 2) ∧
    ∃ name g', Graph.issueName ⟨1⟩ g = .ok name g' ∧
      (∀ ids id decl, g.members ⟨1⟩ = .ok ids → id ∈ ids → g.get? id = some decl →
        decl.kind = .klass ∨ decl.kind = .object → decl.name? ≠ some name) ∧
      (⟨1⟩, name) ∉ record.issued := by
  have hg := built_played [.klass root ⟨"C"⟩, .issueName ⟨1⟩, .klass ⟨1⟩ ⟨"anon$1"⟩] rfl
  have hother := built_played [.klass root ⟨"C"⟩, .issueName ⟨1⟩, .object ⟨1⟩ ⟨"anon$1"⟩] rfl
  obtain ⟨merged, -, -, hmerge, -⟩ := hg.exists_merging hother (by decide +kernel)
  obtain rfl := Build.final_of_ok hmerge
  have hmerged := hg.merge hother hmerge (by decide +kernel)
  exact ⟨_, _, hmerged, by decide +kernel, by decide +kernel, by decide +kernel,
    Built.issueName_fresh hmerged (by decide +kernel) (by decide +kernel)⟩

end DeclGraph
