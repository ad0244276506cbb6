import DeclGraph.Proofs.References
import DeclGraph.Proofs.Reproduction

/-!
# Plain references

A merge renames anonymous classes and objects only, and so it redirects only those
references that name one.  A type that names nothing by an anonymous name is left as
it is, and where all types of two graphs are of that sort, so are those of the graph
that they are merged into.

Main results:

- Theorem `Graph.Merging.redirect_of_plain`: a merge leaves plain types alone.
- Theorem `Graph.Merging.rename_leaf_of_plain`: fields, methods and comments with plain
  types are copied as they are.
- Theorem `Graph.Merging.plainReferences`: a merge of graphs with plain references has
  plain references.
-/

namespace DeclGraph

/-! ## The types that are mentioned -/

namespace TypeExpr

/-- Does a type name nothing by an anonymous name? -/
def Plain (type : TypeExpr) : Prop :=
  ∀ node ∈ type.nodes, ∀ name ∈ node.1.segments, name.anonymousIndex? = none

instance (type : TypeExpr) : Decidable type.Plain :=
  inferInstanceAs (Decidable (∀ node ∈ type.nodes, ∀ name ∈ node.1.segments,
    name.anonymousIndex? = none))

mutual

/-- A type stays what it is where all its paths do. -/
theorem mapPaths_eq_self {change : Path → Path} : ∀ {type : TypeExpr},
    (∀ node ∈ type.nodes, change node.1 = node.1) → type.mapPaths change = type
  | ⟨head, args⟩, h => by
    rw [nodes, List.forall_mem_cons] at h
    rw [mapPaths, h.1, mapPathsOfList_eq_self h.2]

theorem mapPathsOfList_eq_self {change : Path → Path} : ∀ {types : List TypeExpr},
    (∀ node ∈ nodesOfList types, change node.1 = node.1) → mapPathsOfList change types = types
  | [], _ => rfl
  | type :: rest, h => by
    rw [nodesOfList, List.forall_mem_append] at h
    rw [mapPathsOfList, mapPaths_eq_self h.1, mapPathsOfList_eq_self h.2]

end

end TypeExpr

namespace Decl

/-- Does a declaration mention nothing by an anonymous name? -/
def Plain (decl : Decl) : Prop :=
  ∀ type ∈ decl.types, type.Plain

instance (decl : Decl) : Decidable decl.Plain :=
  inferInstanceAs (Decidable (∀ type ∈ decl.types, type.Plain))

theorem types_header (decl : Decl) : decl.header.types = decl.types := by
  cases decl <;> rfl

theorem plain_header_iff {decl : Decl} : decl.header.Plain ↔ decl.Plain := by
  unfold Plain
  rw [types_header]

end Decl

/-- A type parameter stays what it is where its bound does. -/
theorem TypeParam.mapTypes_eq_self {change : TypeExpr → TypeExpr} {tparam : TypeParam}
    (h : ∀ type, tparam.bound = some type → change type = type) :
    tparam.mapTypes change = tparam := by
  obtain ⟨name, bound⟩ := tparam
  cases bound with
  | none => rfl
  | some type => rw [mapTypes, Option.map_some, h type rfl]

/-- Type parameters stay what they are where their bounds do. -/
private theorem mapTypes_tparams_eq_self {change : TypeExpr → TypeExpr} {tparams : List TypeParam}
    (h : ∀ type ∈ tparams.filterMap TypeParam.bound, change type = type) :
    tparams.map (TypeParam.mapTypes change) = tparams := by
  have hkept : ∀ tparam ∈ tparams, tparam.mapTypes change = tparam := by
    intro tparam htparam
    apply TypeParam.mapTypes_eq_self
    intro type hbound
    exact h type (List.mem_filterMap.mpr ⟨tparam, htparam, hbound⟩)
  rw [List.map_congr_left hkept, List.map_id']

/-- A declaration stays what it is where all types that it mentions do. -/
theorem Decl.mapTypes_eq_self {change : TypeExpr → TypeExpr} {decl : Decl}
    (h : ∀ type ∈ decl.types, change type = type) : decl.mapTypes change = decl := by
  cases decl with
  | klass k =>
      obtain ⟨htparams, hparents⟩ := List.forall_mem_append.mp h
      have hparentsKept : k.parents.map change = k.parents := by
        rw [List.map_congr_left hparents, List.map_id']
      rw [mapTypes, ClassDecl.mapTypes, mapTypes_tparams_eq_self htparams, hparentsKept]
  | method m =>
      obtain ⟨hsignature, hresult⟩ := List.forall_mem_append.mp h
      obtain ⟨htparams, hparams⟩ := List.forall_mem_append.mp hsignature
      have hparamsKept : m.params.map (Param.mapTypes change) = m.params := by
        have hkept : ∀ param ∈ m.params, param.mapTypes change = param := by
          intro param hparam
          rw [Param.mapTypes, hparams _ (List.mem_map_of_mem hparam)]
        rw [List.map_congr_left hkept, List.map_id']
      rw [mapTypes, MethodDecl.mapTypes, mapTypes_tparams_eq_self htparams, hparamsKept,
        hresult _ (List.mem_singleton_self _)]
  | field f => rw [mapTypes, FieldDecl.mapTypes, h _ (List.mem_singleton_self _)]
  | param p => rw [mapTypes, Param.mapTypes, h _ (List.mem_singleton_self _)]
  | typeParam t =>
      rw [mapTypes, TypeParam.mapTypes_eq_self]
      intro type hbound
      apply h
      rw [types, hbound]
      exact List.mem_singleton_self _
  | _ => rfl

namespace Graph

/-- Does no declaration of a graph mention anything by an anonymous name? -/
def PlainReferences (g : Graph) : Prop :=
  ∀ decl ∈ g.decls.toList, decl.Plain

instance (g : Graph) : Decidable g.PlainReferences :=
  inferInstanceAs (Decidable (∀ decl ∈ g.decls.toList, decl.Plain))

theorem plainReferences_iff_header? {g : Graph} (hsize : g.size < UInt32.size) :
    g.PlainReferences ↔ ∀ id decl, g.header? id = some decl → decl.Plain := by
  constructor
  · intro h id decl hheader
    obtain ⟨found, hfound, rfl⟩ := Option.map_eq_some_iff.mp hheader
    exact Decl.plain_header_iff.mpr (h found (mem_decls_of_get? hfound))
  · intro h decl hdecl
    rw [Array.mem_toList_iff] at hdecl
    obtain ⟨i, hi⟩ := Array.mem_iff_getElem?.mp hdecl
    have hlt : i < UInt32.size := by
      have hfound := (Array.getElem?_eq_some_iff.mp hi).1
      exact Nat.lt_trans hfound hsize
    have hget : g.get? (DeclId.ofIndex i) = some decl := by
      rw [get?, DeclId.index_ofIndex, Nat.mod_eq_of_lt hlt, hi]
    apply Decl.plain_header_iff.mp
    exact h (DeclId.ofIndex i) _ (by rw [header?, hget, Option.map_some])

/-! ## Merges -/

namespace Merging

variable {g other merged : Graph} {forest : Forest} {log : List Arrival}
  (hm : Merging g other merged forest log)

include hm

/-- A merge leaves a path alone that goes through no anonymous name. -/
theorem follow_of_plain {path : Path}
    (hpath : ∀ name ∈ path.segments, name.anonymousIndex? = none) :
    (g.planned other forest).follow path = path := by
  unfold Renamings.follow
  cases hinnermost : (g.planned other forest).innermost path with
  | none => rfl
  | some entry =>
      -- A renamed container has an anonymous name, which its path ends in.
      obtain ⟨hentry, hbegins, -⟩ := Renamings.innermost_spec hinnermost
      obtain ⟨c, kind, name, k, howner, hkey, -, hindex, -, -, hfrom, -⟩ :=
        hm.mem_planned_iff_shifted.mp hentry
      have hlast : name ∈ entry.fromPath.segments := by
        rw [hfrom, path_of_owner? hm.other_coherent howner hkey, Path.segments_child]
        exact List.mem_append_right _ (List.mem_singleton_self _)
      rw [hpath name (hbegins.subset hlast)] at hindex
      contradiction

/-- A merge leaves plain types alone. -/
theorem redirect_of_plain {type : TypeExpr} (h : type.Plain) :
    (g.planned other forest).redirect type = type :=
  TypeExpr.mapPaths_eq_self fun node hnode => hm.follow_of_plain (h node hnode)

variable (hplain : other.PlainReferences)

include hplain

theorem mapTypes_of_plain {id : DeclId} {decl : Decl} (hdecl : other.get? id = some decl) :
    decl.mapTypes (g.planned other forest).redirect = decl := by
  apply Decl.mapTypes_eq_self
  intro type htype
  apply hm.redirect_of_plain
  exact hplain decl (mem_decls_of_get? hdecl) type htype

/-- What is no container is copied as it is. -/
theorem rename_leaf_of_plain {id : DeclId} {decl : Decl} (hdecl : other.get? id = some decl)
    (hleaf : decl.key? = none) : (g.planned other forest).rename id decl = decl := by
  have hkept := hm.mapTypes_of_plain hplain hdecl
  cases decl <;> first | exact hkept | simp [Decl.key?] at hleaf

/-- What is renamed keeps the types that it mentions. -/
theorem types_rename_of_plain {id : DeclId} {decl : Decl} (hdecl : other.get? id = some decl) :
    ((g.planned other forest).rename id decl).types = decl.types := by
  have hkept := congrArg Decl.types (hm.mapTypes_of_plain hplain hdecl)
  cases decl <;> exact hkept

end Merging

/-! ## Merges of graphs with plain references -/

theorem plain_bare (key : Key) (companion : Option DeclId) : (bare key companion).Plain := by
  obtain ⟨kind, name⟩ := key
  intro type htype
  cases kind <;> simp [bare, Decl.types] at htype

/-- What absorbs a declaration mentions nothing that the two of them did not. -/
theorem plain_absorb {old incoming : Decl} (hold : old.Plain) (hincoming : incoming.Plain)
    (fresh : Bool) : (incoming.absorb fresh old).Plain := by
  cases incoming with
  | klass k =>
      cases old with
      | klass known =>
          obtain ⟨hknownTparams, hknownParents⟩ := List.forall_mem_append.mp hold
          obtain ⟨htparams, hparents⟩ := List.forall_mem_append.mp hincoming
          have hgained : ∀ made : ClassDecl, (∀ type ∈ made.parents, type.Plain) →
              ∀ type ∈ (made.gainParents k.parents).parents, type.Plain := by
            intro made hmade type htype
            rw [ClassDecl.gainParents_eq, List.mem_append, List.mem_eraseDups,
              List.mem_filter] at htype
            obtain hknown | ⟨hnew, -⟩ := htype
            · exact hmade type hknown
            · exact hparents type hnew
          cases fresh with
          | true => exact List.forall_mem_append.mpr ⟨htparams, hgained _ hknownParents⟩
          | false => exact List.forall_mem_append.mpr ⟨hknownTparams, hgained _ hknownParents⟩
      | _ => exact hold
  | _ => cases old <;> exact hold

/-- What an arrival leaves in its slot mentions nothing that was not mentioned before. -/
private theorem plain_settled {a : Arrival} {before : Option Decl} {after : Decl}
    (ha : a.decl.Plain) (hbefore : ∀ decl, before = some decl → decl.Plain)
    (h : a.settled before = some after) : after.Plain := by
  unfold Arrival.settled at h
  split at h
  · exact Option.some.inj h ▸ ha
  · obtain ⟨old, hold, rfl⟩ := Option.map_eq_some_iff.mp h
    apply plain_absorb _ ha
    split at hold
    · exact Option.some.inj hold ▸ plain_bare _ _
    · exact hbefore old hold

/-- Where only plain types arrive, only plain types are there after it. -/
private theorem Log.plain_header {g other h : Graph} {plan : Renamings} {log : List Arrival}
    (hg : Coherent g) (hlog : Log g other plan log h)
    (hplain : ∀ id decl, g.header? id = some decl → decl.Plain)
    (harrivals : ∀ id decl, other.get? id = some decl → (plan.rename id decl).Plain) :
    ∀ id decl, h.header? id = some decl → decl.Plain := by
  induction hlog with
  | start hdecl =>
      intro id decl hheader
      rw [header?_modify] at hheader
      split at hheader
      · obtain ⟨old, hold, rfl⟩ := Option.map_eq_some_iff.mp hheader
        apply Decl.plain_header_iff.mpr
        apply plain_absorb _ (harrivals _ _ hdecl)
        apply Decl.plain_header_iff.mp
        exact hplain root _ (by rw [header?, hold, Option.map_some])
      · exact hplain id decl hheader
  | arrive hlog hparent htarget howner hdecl hrenamed hnew hstep hsize ih =>
      intro id decl hheader
      rw [(hstep.effect (hlog.coherent hg) hsize).header?] at hheader
      split at hheader
      · refine plain_settled ?_ (ih id) hheader
        rw [hrenamed]
        exact harrivals _ _ hdecl
      · exact ih id decl hheader

/-- A merge of graphs with plain references has plain references. -/
theorem Merging.plainReferences {g other merged : Graph} {forest : Forest} {log : List Arrival}
    (hm : Merging g other merged forest log) (hg : g.PlainReferences)
    (hother : other.PlainReferences) : merged.PlainReferences := by
  apply (plainReferences_iff_header? hm.merged_coherent.size_lt).mpr
  apply hm.logged.plain_header hm.coherent
  · exact (plainReferences_iff_header? hm.coherent.size_lt).mp hg
  · intro id decl hdecl
    unfold Decl.Plain
    rw [hm.types_rename_of_plain hother hdecl]
    exact hother decl (mem_decls_of_get? hdecl)

end Graph
end DeclGraph
