import Mathlib.Data.List.Induction
import DeclGraph.Graph.Renaming

/-!
# Rewriting references

A reference names what it means by a path.  Where containers are renamed, the paths
that lead to or through them are rewritten: the innermost renamed container on a path
is exchanged for its new path, and what is below it on the path stays.  A path that no
renamed container lies on is left as it is.  Types are rewritten path by path, and
declarations type by type.

Main results:

- Theorem `Renamings.innermost_eq_some_iff`: which renamed container on a path is
  exchanged.
- Theorem `Renamings.follow_eq_iff`: where a path is sent.
- Theorem `Renamings.rewrites`: what renamings do to paths, types and declarations.
-/

namespace DeclGraph

theorem Path.eq_of_segments_eq {p q : Path} (h : p.segments = q.segments) : p = q := by
  cases p
  cases q
  exact congrArg Path.mk h

namespace Renamings

/-! ## The innermost renaming -/

/-- The renamed container `entry` is the innermost one on a path: it lies on the path, none that
does lies deeper, and none of the same path comes later. -/
structure Innermost (renamings : Renamings) (path : Path) (entry : Renaming) : Prop where
  /-- It lies on the path. -/
  lies : entry.fromPath.segments <+: path.segments
  /-- Of those on the path it is the last of the longest. -/
  last : ∃ before after, renamings = before ++ entry :: after ∧
    (∀ outer ∈ before, outer.fromPath.segments <+: path.segments →
      outer.fromPath.length ≤ entry.fromPath.length) ∧
    ∀ outer ∈ after, outer.fromPath.segments <+: path.segments →
      outer.fromPath.length < entry.fromPath.length

private theorem longer_eq_some_iff {best : Option Renaming} {next entry : Renaming} :
    longer best next = some entry ↔
      (next = entry ∧ ∀ known, best = some known →
        known.fromPath.length ≤ next.fromPath.length) ∨
      (best = some entry ∧ next.fromPath.length < entry.fromPath.length) := by
  cases best with
  | none => simp [longer]
  | some known =>
      rw [longer]
      split
      · next hle =>
          simp only [Option.some.injEq, forall_eq', hle, and_true]
          constructor
          · exact Or.inl
          · rintro (hnext | ⟨rfl, hlt⟩)
            · exact hnext
            · omega
      · next hlt =>
          simp only [Option.some.injEq, forall_eq', hlt, and_false, false_or]
          constructor
          · rintro rfl
            exact ⟨rfl, Nat.lt_of_not_le hlt⟩
          · exact And.left

private theorem foldl_longer_eq_none_iff {renamings : Renamings} :
    renamings.foldl longer none = none ↔ renamings = [] := by
  induction renamings using List.reverseRecOn with
  | nil => simp
  | append_singleton before next =>
      rw [List.foldl_append, List.foldl_cons, List.foldl_nil]
      cases before.foldl longer none with
      | none => simp [longer]
      | some known =>
          rw [longer]
          split <;> simp

/-- Of these renamings, `entry` is the last of the longest. -/
def LastLongest (renamings : Renamings) (entry : Renaming) : Prop :=
  ∃ before after, renamings = before ++ entry :: after ∧
    (∀ outer ∈ before, outer.fromPath.length ≤ entry.fromPath.length) ∧
    ∀ outer ∈ after, outer.fromPath.length < entry.fromPath.length

private theorem LastLongest.le {renamings : Renamings} {entry : Renaming}
    (h : renamings.LastLongest entry) {outer : Renaming} (houter : outer ∈ renamings) :
    outer.fromPath.length ≤ entry.fromPath.length := by
  obtain ⟨before, after, rfl, hbefore, hafter⟩ := h
  rw [List.mem_append, List.mem_cons] at houter
  rcases houter with hin | rfl | hin
  · exact hbefore outer hin
  · exact Nat.le_refl _
  · exact Nat.le_of_lt (hafter outer hin)

/-- With one more, it is that one or the one of before. -/
private theorem lastLongest_concat_iff {passed : Renamings} {next entry : Renaming} :
    LastLongest (passed ++ [next]) entry ↔
      (next = entry ∧ ∀ outer ∈ passed, outer.fromPath.length ≤ next.fromPath.length) ∨
      (passed.LastLongest entry ∧ next.fromPath.length < entry.fromPath.length) := by
  constructor
  · rintro ⟨before, after, hsplit, hbefore, hafter⟩
    rcases List.eq_nil_or_concat after with rfl | ⟨between, final, rfl⟩
    · obtain ⟨rfl, hnext⟩ := List.append_inj' hsplit rfl
      obtain rfl := List.singleton_inj.mp hnext
      exact Or.inl ⟨rfl, hbefore⟩
    · rw [List.concat_eq_append] at hsplit hafter
      rw [← List.cons_append, ← List.append_assoc] at hsplit
      obtain ⟨rfl, hnext⟩ := List.append_inj' hsplit rfl
      obtain rfl := List.singleton_inj.mp hnext
      obtain ⟨hbetween, hlt⟩ := List.forall_mem_append.mp hafter
      exact Or.inr ⟨⟨before, between, rfl, hbefore, hbetween⟩, hlt next List.mem_cons_self⟩
  · rintro (⟨rfl, hpassed⟩ | ⟨⟨before, after, rfl, hbefore, hafter⟩, hlt⟩)
    · exact ⟨passed, [], rfl, hpassed, List.forall_mem_nil _⟩
    · refine ⟨before, after ++ [next], by simp, hbefore, ?_⟩
      exact List.forall_mem_append.mpr ⟨hafter, List.forall_mem_singleton.mpr hlt⟩

/-- Of the renamings that are gone through, the last of the longest is kept. -/
private theorem foldl_longer_eq_some_iff {renamings : Renamings} {entry : Renaming} :
    renamings.foldl longer none = some entry ↔ renamings.LastLongest entry := by
  induction renamings using List.reverseRecOn generalizing entry with
  | nil => simp [LastLongest]
  | append_singleton passed next ih =>
      -- The one that is kept so far is as long as any of those passed.
      have hkept : (∀ known, passed.foldl longer none = some known →
          known.fromPath.length ≤ next.fromPath.length) ↔
          ∀ outer ∈ passed, outer.fromPath.length ≤ next.fromPath.length := by
        constructor
        · intro hknown outer houter
          obtain ⟨known, hfold⟩ := Option.ne_none_iff_exists'.mp
            (foldl_longer_eq_none_iff.not.mpr (List.ne_nil_of_mem houter))
          exact Nat.le_trans ((ih.mp hfold).le houter) (hknown known hfold)
        · intro hpassed known hfold
          obtain ⟨before, after, rfl, -, -⟩ := ih.mp hfold
          exact hpassed known (by simp)
      rw [List.foldl_append, List.foldl_cons, List.foldl_nil, longer_eq_some_iff, ih, hkept,
        lastLongest_concat_iff]

/-- The renaming that is looked up for a path is the innermost one on it. -/
theorem innermost_eq_some_iff {renamings : Renamings} {path : Path} {entry : Renaming} :
    renamings.innermost path = some entry ↔ renamings.Innermost path entry := by
  have hlies : ∀ {outer : Renaming}, outer.fromPath.segments.isPrefixOf path.segments = true ↔
      outer.fromPath.segments <+: path.segments := List.isPrefixOf_iff_prefix
  rw [innermost, foldl_longer_eq_some_iff]
  constructor
  · rintro ⟨before, after, hsplit, hbefore, hafter⟩
    obtain ⟨first, rest, rfl, rfl, hrest⟩ := List.filter_eq_append_iff.mp hsplit
    obtain ⟨between, last, rfl, hbetween, hentry, rfl⟩ := List.filter_eq_cons_iff.mp hrest
    refine ⟨hlies.mp hentry, first ++ between, last, by simp, ?_, ?_⟩
    · intro outer houter hpath
      rcases List.mem_append.mp houter with hin | hin
      · exact hbefore outer (List.mem_filter.mpr ⟨hin, hlies.mpr hpath⟩)
      · exact absurd (hlies.mpr hpath) (hbetween outer hin)
    · intro outer houter hpath
      exact hafter outer (List.mem_filter.mpr ⟨houter, hlies.mpr hpath⟩)
  · rintro ⟨hentry, before, after, rfl, hbefore, hafter⟩
    have hkept := List.filter_cons_of_pos (l := after)
      (p := fun outer => outer.fromPath.segments.isPrefixOf path.segments) (hlies.mpr hentry)
    refine ⟨_, _, by rw [List.filter_append, hkept], ?_, ?_⟩
    · intro outer houter
      obtain ⟨hin, hpath⟩ := List.mem_filter.mp houter
      exact hbefore outer hin (hlies.mp hpath)
    · intro outer houter
      obtain ⟨hin, hpath⟩ := List.mem_filter.mp houter
      exact hafter outer hin (hlies.mp hpath)

/-- None is found where no renamed container lies on the path. -/
theorem innermost_eq_none_iff {renamings : Renamings} {path : Path} :
    renamings.innermost path = none ↔
      ∀ entry ∈ renamings, ¬ entry.fromPath.segments <+: path.segments := by
  rw [innermost, foldl_longer_eq_none_iff, List.filter_eq_nil_iff]
  simp only [List.isPrefixOf_iff_prefix]

/-- The innermost renamed container lies on the path, and none lies deeper. -/
theorem innermost_spec {renamings : Renamings} {path : Path} {entry : Renaming}
    (h : renamings.innermost path = some entry) :
    entry ∈ renamings ∧ entry.fromPath.segments <+: path.segments ∧
      ∀ further ∈ renamings, further.fromPath.segments <+: path.segments →
        further.fromPath.length ≤ entry.fromPath.length := by
  have hlongest := foldl_longer_eq_some_iff.mp h
  obtain ⟨hlies, before, after, rfl, -, -⟩ := innermost_eq_some_iff.mp h
  refine ⟨by simp, hlies, ?_⟩
  intro further hfurther hbegins
  apply hlongest.le
  rw [List.mem_filter, List.isPrefixOf_iff_prefix]
  exact ⟨hfurther, hbegins⟩

/-! ## Paths -/

/-- A path is sent to another one by renamings. -/
inductive Sends (renamings : Renamings) (path : Path) : Path → Prop
  /-- Where no renamed container lies on it, it stays as it is. -/
  | kept (hnone : ∀ entry ∈ renamings, ¬ entry.fromPath.segments <+: path.segments) :
      Sends renamings path path
  /-- Else the innermost one is exchanged for its new path, and what is below stays. -/
  | exchanged {entry : Renaming} {below : List Name} (hinnermost : renamings.Innermost path entry)
      (hpath : path.segments = entry.fromPath.segments ++ below) :
      Sends renamings path ⟨entry.toPath.segments ++ below⟩

/-- Following renamings sends a path where they send it, and nowhere else. -/
theorem follow_eq_iff {renamings : Renamings} {path sent : Path} :
    renamings.follow path = sent ↔ renamings.Sends path sent := by
  constructor
  · rintro rfl
    unfold follow
    cases hfound : renamings.innermost path with
    | none => exact .kept (innermost_eq_none_iff.mp hfound)
    | some entry =>
        have hinnermost := innermost_eq_some_iff.mp hfound
        exact .exchanged hinnermost (List.prefix_iff_eq_append.mp hinnermost.lies).symm
  · intro hsends
    unfold follow
    cases hsends with
    | kept hnone => rw [innermost_eq_none_iff.mpr hnone]
    | exchanged hinnermost hpath =>
        rw [innermost_eq_some_iff.mpr hinnermost, hpath]
        simp [Path.length]

end Renamings

/-! ## Types and declarations -/

namespace TypeExpr

mutual

/-- Where paths are exchanged, the nodes of a type stay where they are. -/
theorem nodes_mapPaths (change : Path → Path) : ∀ type : TypeExpr,
    (type.mapPaths change).nodes = type.nodes.map (Prod.map change id)
  | ⟨head, args⟩ => by
    rw [mapPaths, nodes, nodes, nodesOfList_mapPaths change args, mapPathsOfList_eq_map,
      List.length_map, List.map_cons]
    rfl

theorem nodesOfList_mapPaths (change : Path → Path) : ∀ types : List TypeExpr,
    nodesOfList (mapPathsOfList change types) = (nodesOfList types).map (Prod.map change id)
  | [] => rfl
  | type :: rest => by
    rw [mapPathsOfList, nodesOfList, nodesOfList, nodes_mapPaths change type,
      nodesOfList_mapPaths change rest, List.map_append]

end

end TypeExpr

namespace Decl

/-- The types that a declaration mentions. -/
def types : Decl → List TypeExpr
  | comment _ | package _ | object _ => []
  | klass k => k.tparams.filterMap TypeParam.bound ++ k.parents
  | field f => [f.type]
  | method m => m.tparams.filterMap TypeParam.bound ++ m.params.map Param.type ++ [m.result]
  | typeParam t => t.bound.toList
  | param p => [p.type]

end Decl

/-- The bounds of type parameters are changed one by one. -/
private theorem bounds_mapTypes (change : TypeExpr → TypeExpr) (tparams : List TypeParam) :
    (tparams.map (TypeParam.mapTypes change)).filterMap TypeParam.bound =
      (tparams.filterMap TypeParam.bound).map change := by
  rw [List.filterMap_map, List.map_filterMap]
  rfl

/-- The types of parameters are changed one by one. -/
private theorem types_mapTypes_params (change : TypeExpr → TypeExpr) (params : List Param) :
    (params.map (Param.mapTypes change)).map Param.type = (params.map Param.type).map change := by
  rw [List.map_map, List.map_map]
  rfl

/-- Every type that a declaration mentions is changed, and it mentions no other. -/
theorem Decl.types_mapTypes (change : TypeExpr → TypeExpr) (decl : Decl) :
    (decl.mapTypes change).types = decl.types.map change := by
  cases decl with
  | klass k =>
      rw [types, List.map_append, ← bounds_mapTypes]
      rfl
  | method m =>
      rw [types, List.map_append, List.map_append, ← bounds_mapTypes, ← types_mapTypes_params]
      rfl
  | typeParam t =>
      obtain ⟨name, bound⟩ := t
      cases bound <;> rfl
  | _ => rfl

namespace Renamings

theorem types_rename (renamings : Renamings) (id : DeclId) (decl : Decl) :
    (renamings.rename id decl).types = decl.types.map renamings.redirect := by
  have hmapped := decl.types_mapTypes renamings.redirect
  cases decl <;> exact hmapped

/-! ## What renamings do -/

/-- What renamings do to paths, types and declarations. -/
structure Rewrites (renamings : Renamings) : Prop where
  /-- The innermost renamed container on a path is exchanged for its new path, and a path without
  one stays as it is. -/
  paths : ∀ {path sent : Path}, renamings.follow path = sent ↔ renamings.Sends path sent
  /-- Of a type every path is rewritten, and its arguments stay where they are. -/
  types : ∀ type : TypeExpr, (renamings.redirect type).nodes =
    type.nodes.map (Prod.map renamings.follow id)
  /-- Of a declaration every type is rewritten. -/
  decls : ∀ (id : DeclId) (decl : Decl),
    (renamings.rename id decl).types = decl.types.map renamings.redirect

/-- **Renamings rewrite references.**  The innermost renamed container on a path is exchanged, in
every type that a declaration mentions. -/
theorem rewrites (renamings : Renamings) : renamings.Rewrites where
  paths := follow_eq_iff
  types := TypeExpr.nodes_mapPaths renamings.follow
  decls := renamings.types_rename

end Renamings

end DeclGraph
