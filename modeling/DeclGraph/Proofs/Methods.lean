import DeclGraph.Proofs.Continuations

/-!
# The methods of a container

The members of a container that are methods, in the order of the members and each with what
it declares.  A new method comes last among them, an edit exchanges what one of them declares,
and a method that is taken out is missing among them and nowhere else.

Main results:

- Theorem `Graph.Fits.methods`, Theorem `Graph.methods_modifyMethod` and Theorem
  `Graph.Coherent.methods_detach`: the methods after each of the three changes.
- Theorem `Graph.Coherent.dropDuplicate_eq`: a method is taken out exactly if another method of
  the container is like it.
- Theorem `Graph.Grown.others_prefix`: whatever else is a member stays one, in its order.
-/

namespace DeclGraph

/-- Is one of these methods like this one? -/
def hasAlike (known : List (DeclId × MethodDecl)) (method : MethodDecl) : Bool :=
  known.any fun entry => entry.2.Alike method

@[simp] theorem hasAlike_nil (method : MethodDecl) : hasAlike [] method = false :=
  rfl

@[simp] theorem hasAlike_singleton (entry : DeclId × MethodDecl) (method : MethodDecl) :
    hasAlike [entry] method = decide (entry.2.Alike method) := by
  simp [hasAlike]

theorem hasAlike_append (known more : List (DeclId × MethodDecl)) (method : MethodDecl) :
    hasAlike (known ++ more) method = (hasAlike known method || hasAlike more method) :=
  List.any_append

theorem hasAlike_iff {known : List (DeclId × MethodDecl)} {method : MethodDecl} :
    hasAlike known method = true ↔ ∃ entry ∈ known, entry.2.Alike method := by
  simp [hasAlike]

namespace Graph

/-- The methods among the members of a container. -/
def methods (g : Graph) (container : DeclId) : List (DeclId × MethodDecl) :=
  (g.memberIds container).filterMap fun id => (g.method? id).map fun method => (id, method)

/-- The members of a container that are no methods. -/
def others (g : Graph) (container : DeclId) : List DeclId :=
  (g.memberIds container).filter fun id => (g.method? id).isNone

variable {g : Graph} {container id : DeclId}

theorem method?_eq_header? (g : Graph) (id : DeclId) :
    g.method? id = (g.header? id).bind Decl.method? := by
  rw [method?, header?]
  cases g.get? id with
  | none => rfl
  | some decl => cases decl <;> rfl

theorem mem_methods_iff {method : MethodDecl} :
    (id, method) ∈ g.methods container ↔
      id ∈ g.memberIds container ∧ g.method? id = some method := by
  simp only [methods, List.mem_filterMap, Option.map_eq_some_iff, Prod.mk.injEq]
  constructor
  · rintro ⟨_, hmember, _, hmethod, rfl, rfl⟩
    exact ⟨hmember, hmethod⟩
  · rintro ⟨hmember, hmethod⟩
    exact ⟨id, hmember, method, hmethod, rfl, rfl⟩

/-- The methods of a container are all in slots of their own. -/
theorem Coherent.nodup_methods (hg : Coherent g) (container : DeclId) :
    ((g.methods container).map Prod.fst).Nodup := by
  have hids : (g.methods container).map Prod.fst =
      (g.memberIds container).filter fun id => (g.method? id).isSome := by
    rw [methods, List.map_filterMap, ← List.filterMap_eq_filter]
    congr 1
    funext id
    cases h : g.method? id <;> simp [Option.guard, h]
  rw [hids]
  exact (hg.nodup_memberIds container).filter _

/-! ## Changes -/

/-- A new member comes last, and is a method or not. -/
theorem Fits.methods {decl : Decl} (hfits : Fits g container decl) (hg : Coherent g) :
    (g.enlist container decl).methods container =
      g.methods container ++ (decl.method?.map fun method => (g.nextId, method)).toList := by
  have hmethod : ∀ id, (g.enlist container decl).method? id =
      if id = g.nextId then decl.method? else g.method? id := by
    intro id
    rw [method?_eq_header?, hfits.header? hg, method?_eq_header?]
    split
    · cases decl <;> rfl
    · rfl
  rw [Graph.methods, hfits.mem_memberIds hg, if_pos rfl, List.filterMap_append]
  congr 1
  · refine List.filterMap_congr fun id hid => ?_
    have hlt := hg.index_lt_of_owner? (hg.mem_memberIds.mp hid)
    rw [hmethod, if_neg (ne_nextId_of_lt hg.size_lt hlt)]
  · rw [List.filterMap_cons, hmethod, if_pos rfl]
    cases decl.method? <;> rfl

/-- An edit exchanges what one of the methods declares. -/
theorem methods_modifyMethod (g : Graph) (container id : DeclId)
    (change : MethodDecl → MethodDecl) :
    (g.modifyMethod id change).methods container = (g.methods container).map fun entry =>
      if entry.1 = id then (id, change entry.2) else entry := by
  have hmembers : (g.modifyMethod id change).memberIds container = g.memberIds container :=
    (sameTree_modify fun decl _ => (samePlace_mapMethod change decl).1).memberIds container
  have hmethod : ∀ other, (g.modifyMethod id change).method? other =
      if other = id then (g.method? other).map change else g.method? other := by
    intro other
    rw [method?, modifyMethod, get?_modify, method?]
    split
    · cases g.get? other with
      | none => rfl
      | some decl => cases decl <;> rfl
    · rfl
  rw [methods, hmembers, methods, List.map_filterMap]
  refine List.filterMap_congr fun other _ => ?_
  rw [hmethod]
  by_cases hid : other = id
  · simp only [if_pos hid, Option.map_map]
    cases g.method? other <;> simp [hid]
  · simp only [if_neg hid, Option.map_map]
    cases g.method? other <;> simp [hid]

/-- A method that is taken out is missing among the methods. -/
theorem Coherent.methods_detach (hg : Coherent g) (container id : DeclId) :
    (g.detach container id).methods container =
      (g.methods container).filter fun entry => entry.1 ≠ id := by
  have hmethod : ∀ other, (g.detach container id).method? other = g.method? other := by
    intro other
    rw [method?_eq_header?, header?_detach, ← method?_eq_header?]
  rw [methods, memberIds_detach, if_pos rfl, (hg.nodup_memberIds container).erase_eq_filter,
    List.filterMap_filter, methods, List.filter_filterMap]
  refine List.filterMap_congr fun other _ => ?_
  rw [hmethod]
  cases g.method? other with
  | none => simp
  | some method => by_cases hid : other = id <;> simp [hid, Option.filter_some]

/-! ## Duplicates -/

/-- The members of a container are asked for a method that is like this one. -/
theorem anyAlike_memberIds {method : MethodDecl} :
    g.anyAlike (g.memberIds container) id method =
      hasAlike ((g.methods container).filter fun entry => entry.1 ≠ id) method := by
  rw [Bool.eq_iff_iff]
  simp only [anyAlike, hasAlike, List.any_eq_true, Bool.and_eq_true, decide_eq_true_eq,
    Option.any_eq_true, List.mem_filter]
  constructor
  · rintro ⟨other, hother, hne, found, hfound, halike⟩
    exact ⟨(other, found), ⟨mem_methods_iff.mpr ⟨hother, hfound⟩, hne⟩, halike⟩
  · rintro ⟨⟨other, found⟩, ⟨hentry, hne⟩, halike⟩
    obtain ⟨hother, hfound⟩ := mem_methods_iff.mp hentry
    exact ⟨other, hother, hne, found, hfound, halike⟩

/-- A method is taken out exactly if another method of the container is like it. -/
theorem Coherent.dropDuplicate_eq (hg : Coherent g) {method : MethodDecl}
    (hid : (id, method) ∈ g.methods container) :
    dropDuplicate container id g =
      if hasAlike ((g.methods container).filter fun entry => entry.1 ≠ id) method then
        .ok true (g.detach container id)
      else .ok false g := by
  obtain ⟨hmember, hmethod⟩ := mem_methods_iff.mp hid
  have hcontainer := hg.isSome_key?_of_owner? (hg.mem_memberIds.mp hmember)
  have hduplicate : g.isDuplicate container id =
      .ok (g.anyAlike (g.memberIds container) id method) := by
    rw [isDuplicate_eq_ok_iff, hmethod, Option.any_some, List.contains_iff_mem.mpr hmember,
      Bool.true_and]
    exact ⟨fun _ => hcontainer, rfl⟩
  rw [dropDuplicate, Build.checked_of_ok hduplicate, anyAlike_memberIds]
  cases hasAlike ((g.methods container).filter fun entry => entry.1 ≠ id) method <;> rfl

namespace Grown

variable {removed : List DeclId} {h : Graph}

/-- Whatever is a member and no method stays a member, in its order. -/
theorem others_prefix (hgrown : Grown removed g h) (hg : Coherent g) (container : DeclId) :
    g.others container <+: h.others container := by
  have hkept : g.others container =
      ((g.memberIds container).filter fun id => id ∉ removed).filter
        fun id => (h.method? id).isNone := by
    rw [others, List.filter_filter]
    refine List.filter_congr fun id hid => ?_
    have hlt := hg.index_lt_of_owner? (hg.mem_memberIds.mp hid)
    have hsame : (h.method? id).isNone = (g.method? id).isNone := by
      rw [Bool.eq_iff_iff, ← Option.not_isSome, ← Option.not_isSome]
      simp only [Bool.not_eq_true', ← Bool.not_eq_true, isSome_method?_iff, hgrown.kind? hlt]
    rw [hsame]
    by_cases hremoved : id ∈ removed
    · have hmethod := isSome_method?_iff.mpr (hgrown.takenOut id hremoved).1
      rw [← Option.not_isSome] at hsame
      rw [← hsame, hmethod]
      simp
    · simp [hremoved]
  rw [hkept]
  exact (hgrown.memberIds container).filter _

end Grown

end Graph
end DeclGraph
