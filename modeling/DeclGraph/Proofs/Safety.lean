import DeclGraph.Proofs.References

/-!
# No merge is refused

A merge looks up ids in two graphs: those that it finds in the member lists of the
incoming graph, and those that the indexes of the receiving graph answer with.  Any
of these lookups could be refused, and packages are asked for in containers that
were chosen by name.  That nothing is refused rests on the coherence of both
graphs, of which one is changing.

Main results:

- Theorem `Graph.Log.exists_step`: every arrival is a step from the graph that the
  arrivals before it have led to.
- Theorem `Graph.Log.granted`: what is asked on behalf of an arrival is granted.
- Theorem `Built.merge_unrefused`: a merge of built graphs runs to its end.
-/

namespace DeclGraph
namespace Graph

/-- What is asked of the graph `h` on behalf of an arrival that leads to `h'` is granted. -/
structure Granted (h : Graph) (a : Arrival) (h' : Graph) : Prop where
  /-- It comes into a container. -/
  container : ∃ scope, h.scope a.container = .ok scope
  /-- A package comes into a package. -/
  package : a.decl.kind = .package → ∃ scope, h.packageScope a.container = .ok scope
  /-- The members that it is compared with are declarations of the graph. -/
  members : ∀ member ∈ h.memberIds a.container, ∃ decl, h.decl member = .ok decl
  /-- What it becomes is a declaration of the graph. -/
  target : ∀ target, a.target = some target → ∃ decl, h'.decl target = .ok decl
  /-- What comes into it in turn comes into a container. -/
  below : ∀ target, a.target = some target → a.decl.key?.isSome →
    ∃ scope, h'.scope target = .ok scope

/-- Whatever is in a slot of the graph is found. -/
theorem exists_decl_of_lt {g : Graph} {id : DeclId} (h : id.index < g.size) :
    ∃ decl, g.decl id = .ok decl := by
  rcases exists_get? h with ⟨found, hfound⟩
  exact ⟨found, by simp only [decl, hfound]⟩

namespace Log

variable {g other h : Graph} {plan : Renamings} {log : List Arrival}

/-- Every arrival but that of the root is a step from the graph that the arrivals before it have
led to, into what its owner has become. -/
theorem exists_step (hlog : Log g other plan log h) {before after : List Arrival} {a : Arrival}
    (hsplit : log = before ++ a :: after) (hne : a.source ≠ root) :
    ∃ h₁ h₂ parent, Log g other plan before h₁ ∧ Log g other plan (before ++ [a]) h₂ ∧
      Step g.size h₁ a h₂ ∧ parent ∈ before ∧ parent.target = some a.container ∧
      other.owner? a.source = some parent.source := by
  induction hlog generalizing after with
  | start =>
      rcases List.singleton_eq_append_iff.mp hsplit with ⟨-, hlast⟩ | ⟨-, hnil⟩
      · rw [(List.cons.inj hlast).1] at hne
        contradiction
      · contradiction
  | @arrive log h₁ h₂ parent b decl hlog hparent htarget howner hdecl hrenamed hnew hstep hsize ih =>
      rcases List.eq_nil_or_concat after with rfl | ⟨early, last, rfl⟩
      · rcases List.append_inj' hsplit rfl with ⟨rfl, hlast⟩
        obtain rfl := (List.cons.inj hlast).1
        exact ⟨h₁, h₂, parent, hlog, .arrive hlog hparent htarget howner hdecl hrenamed hnew hstep
          hsize, hstep, hparent, htarget, howner⟩
      · rw [List.concat_eq_append, ← List.cons_append, ← List.append_assoc] at hsplit
        exact ih (List.append_inj' hsplit rfl).1

/-- What is asked on behalf of an arrival is granted by the graph that the arrivals before it have
led to. -/
theorem granted (hg : Coherent g) (hother : Coherent other) (hlog : Log g other plan log h)
    {before after : List Arrival} {a : Arrival} (hsplit : log = before ++ a :: after)
    (hne : a.source ≠ root) :
    ∃ h₁ h₂, Log g other plan before h₁ ∧ Step g.size h₁ a h₂ ∧ Granted h₁ a h₂ := by
  rcases hlog.exists_step hsplit hne with
    ⟨h₁, h₂, parent, hbefore, hlater, hstep, hparent, hinto, howner⟩
  have hh₁ := hbefore.coherent hg
  have hlast : a ∈ before ++ [a] := List.mem_append_right _ (List.mem_singleton.mpr rfl)
  rcases hbefore.isSome_key?_target hg hother hparent hinto with ⟨hkind, hcontainer⟩
  rw [hother.isSome_key?_of_owner? howner] at hcontainer
  rcases exists_scope hcontainer with ⟨scope, hscope, -⟩
  refine ⟨h₁, h₂, hbefore, hstep, ?_⟩
  refine
    { container := ⟨scope, hscope⟩
      package := ?_
      members := ?_
      target := ?_
      below := ?_ }
  · intro hpackage
    rcases hlater.exists_decl hlast with ⟨decl, hdecl, hrenamed⟩
    rw [hrenamed, Renamings.kind_rename] at hpackage
    have hsource : other.kind? a.source = some .package := by
      rw [Graph.kind?, hdecl, Option.map_some, hpackage]
    rw [hother.package_owner howner hsource] at hkind
    exact ⟨scope, packageScope_of_scope hscope hkind⟩
  · intro member hmember
    exact exists_decl_of_lt (hh₁.index_lt_of_owner? (hh₁.mem_memberIds.mp hmember))
  · intro target htarget
    exact exists_decl_of_lt (index_lt_of_kind? (hlater.key?_target hg hother hlast htarget).2)
  · intro target htarget hkey
    rw [← (hlater.key?_target hg hother hlast htarget).1] at hkey
    rcases exists_scope hkey with ⟨inner, hinner, -⟩
    exact ⟨inner, hinner⟩

end Log

/-! ## Merges that run to their end -/

/-- Nothing is refused in a merge of `other` into `g`: it reads `forest`, plans `plan` for it, and
the arrivals of `log` lead to `merged`. -/
structure Unrefused (g other merged : Graph) (forest : Forest) (plan : Renamings)
    (log : List Arrival) : Prop where
  /-- Reading what is below the other root comes to an end. -/
  reading : other.forest (root.index + 1) (other.memberIds root) = .ok forest
  /-- It comes to nothing twice. -/
  nodup : (root :: forest.ids).Nodup
  /-- It comes to whatever is attached. -/
  attached : ∀ {id}, id ∈ root :: forest.ids ↔ other.isAttached id = true
  /-- Whatever it comes to is a declaration of the other graph, and listed in a container. -/
  read : ∀ id ∈ forest.ids, ∃ decl container scope, other.decl id = .ok decl ∧
    other.scope container = .ok scope ∧ id ∈ scope.members
  /-- Planning comes to an end. -/
  planning : ∃ into, g.scope root = .ok into ∧
    forest.renamings g (some into) Path.root Path.root = .ok plan
  /-- Where a container is planned to go is a container. -/
  sites : ∀ {d e}, g.site other d = some e → ∃ scope, g.scope e = .ok scope
  /-- Everything that was read comes in, one after the other. -/
  logged : Log g other plan log merged
  /-- The root comes first, and then what was read. -/
  sources : log.map Arrival.source = root :: forest.ids
  /-- What is asked on behalf of each arrival is granted by the graph that it finds. -/
  granted : ∀ before a after, log = before ++ a :: after → a.source ≠ root →
    ∃ h₁ h₂, Log g other plan before h₁ ∧ Step g.size h₁ a h₂ ∧ Granted h₁ a h₂

/-- In a merge that went through nothing was refused. -/
theorem Merging.unrefused {g other merged : Graph} {forest : Forest} {log : List Arrival}
    (hm : Merging g other merged forest log) :
    Unrefused g other merged forest (g.planned other forest) log where
  reading := hm.forest_eq
  nodup := hm.other_coherent.nodup_cons_ids hm.reads
  attached := by
    intro id
    rw [isAttached_iff_owned, List.mem_cons]
    apply or_congr_right
    constructor
    · intro hread
      exact hm.other_coherent.exists_owner_of_mem_ids hm.reads hread
    · intro hgiven
      rcases hgiven with ⟨container, howner⟩
      exact hm.other_coherent.mem_ids hm.reads howner
  read := by
    intro id hid
    rcases hm.other_coherent.exists_owner_of_mem_ids hm.reads hid with ⟨container, howner⟩
    rcases exists_decl_of_lt (hm.other_coherent.index_lt_of_owner? howner) with ⟨decl, hdecl⟩
    rcases exists_scope (hm.other_coherent.isSome_key?_of_owner? howner) with
      ⟨scope, hscope, hmembers, -⟩
    exact ⟨decl, container, scope, hdecl, hscope,
      hmembers ▸ hm.other_coherent.mem_memberIds.mpr howner⟩
  planning := exists_plan hm.coherent hm.other_coherent hm.reads
  sites := by
    intro d e hsite
    rcases exists_scope (isSome_key?_of_site hm.coherent hm.other_coherent hsite) with
      ⟨scope, hscope, -⟩
    exact ⟨scope, hscope⟩
  logged := hm.logged
  sources := hm.sources
  granted := fun _ _ _ hsplit hne =>
    hm.logged.granted hm.coherent hm.other_coherent hsplit hne

end Graph

open DeclGraph.Graph

/-- **No merge is refused.**  Merging built graphs runs to its end, as long as there are slots for
what comes in.  Reading and planning come to an end, whatever is looked up is there, whatever is
used as a container is one, and packages are asked for in packages only. -/
theorem Built.merge_unrefused {naming : Naming} {record otherRecord : Record} {g other : Graph}
    (hg : Built naming record g) (hother : Built naming otherRecord other)
    (hsize : ((Graph.merge other).final g).size < UInt32.size) :
    ∃ merged forest plan log, Graph.merge other g = .ok () merged ∧
      Unrefused g other merged forest plan log := by
  rcases hg.exists_merging hother hsize with ⟨merged, forest, log, hmerge, hm⟩
  exact ⟨merged, forest, _, log, hmerge, hm.unrefused⟩

/-- A package with a class that is there already, with a method and with a class of its own. -/
theorem merge_unrefused_of_nested : ∃ record otherRecord g other, Built issuedName record g ∧
    Built issuedName otherRecord other ∧ ∃ merged forest plan log,
      Graph.merge other g = .ok () merged ∧ Unrefused g other merged forest plan log := by
  have hg := built_played [.package root ⟨"p"⟩, .klass ⟨1⟩ ⟨"C"⟩, .method ⟨2⟩ ⟨"m"⟩] rfl
  have hother := built_played [.package root ⟨"p"⟩, .klass ⟨1⟩ ⟨"C"⟩, .method ⟨2⟩ ⟨"m"⟩,
    .klass ⟨2⟩ ⟨"D"⟩] rfl
  exact ⟨_, _, _, _, hg, hother, Built.merge_unrefused hg hother (by decide +kernel)⟩

end DeclGraph
