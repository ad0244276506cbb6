import DeclGraph.Proofs.Methods

/-!
# Methods that are inserted one after the other

A method is inserted by adding it, filling it in, and taking it out again if the container has
another method like it.  Whatever else is done meanwhile, as long as it leaves the methods of
the container alone, in the end the container has the methods that it had, and after them, as they
were declared, the first method of each signature that was new to it.

What was declared is kept apart from the graph.  A run carries the method that it is about to
insert, from the empty one that is added through every edit to the comparison, and only there it
joins those that were inserted.

Main results:

- Theorem `Inserted.step`: one step keeps what holds of the methods of the container.
- Theorem `Built.insertions`: the methods of a container after a run of insertions.
-/

namespace DeclGraph

open DeclGraph.Graph

/-! ## The first of each signature -/

/-- Of these methods, one after the other, those that are like none of the known ones and like none
that came before. -/
def firsts (known : List (DeclId × MethodDecl)) :
    List (DeclId × MethodDecl) → List (DeclId × MethodDecl)
  | [] => []
  | entry :: rest =>
    if hasAlike known entry.2 then firsts (known ++ [entry]) rest
    else entry :: firsts (known ++ [entry]) rest

/-- One more method is among the first ones unless there was one like it. -/
theorem firsts_concat (known entries : List (DeclId × MethodDecl)) (entry : DeclId × MethodDecl) :
    firsts known (entries ++ [entry]) = firsts known entries ++
      if hasAlike (known ++ entries) entry.2 then [] else [entry] := by
  induction entries generalizing known with
  | nil =>
      rw [List.nil_append, firsts, List.append_nil]
      rfl
  | cons head rest ih =>
      rw [List.cons_append, firsts, firsts, ih, List.append_assoc, List.singleton_append]
      split
      · rfl
      · rw [List.cons_append]

/-- What is like a method that was left out is like one that was not: to be alike is to have one
signature. -/
theorem hasAlike_append_firsts (known entries : List (DeclId × MethodDecl)) (method : MethodDecl) :
    hasAlike (known ++ firsts known entries) method = hasAlike (known ++ entries) method := by
  induction entries using List.reverseRecOn with
  | nil => rfl
  | append_singleton entries entry ih =>
      have hlast := hasAlike_append (known ++ entries) [entry] method
      rw [List.append_assoc] at hlast
      rw [firsts_concat, ← List.append_assoc, hasAlike_append, ih, hlast]
      split
      · next hold =>
          obtain ⟨found, hfound, hlike⟩ := hasAlike_iff.mp hold
          rw [hasAlike_nil, hasAlike_singleton, Bool.or_false, Eq.comm, Bool.or_eq_left_iff_imp]
          intro halike
          exact hasAlike_iff.mpr ⟨found, hfound, hlike.trans (of_decide_eq_true halike)⟩
      · rfl

/-- Where the known methods are pairwise different, so are they together with the first ones. -/
theorem pairwise_append_firsts {known : List (DeclId × MethodDecl)}
    (h : known.Pairwise fun a b => ¬ a.2.Alike b.2) (entries : List (DeclId × MethodDecl)) :
    (known ++ firsts known entries).Pairwise fun a b => ¬ a.2.Alike b.2 := by
  induction entries using List.reverseRecOn with
  | nil => simpa [firsts] using h
  | append_singleton entries entry ih =>
      rw [firsts_concat, ← List.append_assoc, ← hasAlike_append_firsts]
      split
      · rwa [List.append_nil]
      · next hnew =>
          refine List.pairwise_append.mpr ⟨ih, List.pairwise_singleton _ _, ?_⟩
          intro old hold _ hlast
          obtain rfl := List.mem_singleton.mp hlast
          exact fun halike => hnew (hasAlike_iff.mpr ⟨old, hold, halike⟩)

/-! ## Runs -/

/-- A point of a run in which methods are inserted. -/
structure Stage where
  /-- What is remembered of the requests. -/
  record : Record
  /-- The graph that was come to. -/
  graph : Graph
  /-- The method that was added and is not compared yet, as it is declared so far. -/
  filling : Option (DeclId × MethodDecl) := none
  /-- The methods that were inserted, each as it was declared. -/
  inserted : List (DeclId × MethodDecl) := []

/-- What is done in a run in which methods are inserted into the container `c`. -/
inductive Inserts (naming : Naming) (c : DeclId) : Stage → Stage → Prop
  /-- Something else is done, to the methods of `c` nothing. -/
  | aside {stage : Stage} {record : Record} {g : Graph}
      (hlater : Continued naming stage.record stage.graph record g)
      (hmethods : g.methods c = stage.graph.methods c) :
      Inserts naming c stage { stage with record := record, graph := g }
  /-- A method is added. It is declared by its name. -/
  | add {stage : Stage} {name : Name} {id : DeclId} {g : Graph} (hfilling : stage.filling = none)
      (hrun : addMethod c name stage.graph = .ok id g) (hsize : g.size < UInt32.size) :
      Inserts naming c stage { stage with graph := g, filling := some (id, { name }) }
  /-- The method that was added is edited, and with it what is declared. -/
  | fill {stage : Stage} {id : DeclId} {method : MethodDecl}
      (hfilling : stage.filling = some (id, method)) (change : MethodDecl → MethodDecl) :
      Inserts naming c stage { stage with
        graph := stage.graph.modifyMethod id change
        filling := some (id, change method) }
  /-- The method that was added is compared with the others, and taken out if it is a duplicate.
  Either way it was inserted as it was declared. -/
  | compare {stage : Stage} {id : DeclId} {method : MethodDecl} {dropped : Bool} {g : Graph}
      (hfilling : stage.filling = some (id, method))
      (hrun : dropDuplicate c id stage.graph = .ok dropped g) :
      Inserts naming c stage
        { record := stage.record.after (.dropDuplicate c id) (.dropped dropped)
          graph := g
          inserted := stage.inserted ++ [(id, method)] }

/-- What is done in a run of insertions is done by requests and merges. -/
theorem Inserts.continued {naming : Naming} {c : DeclId} {s t : Stage}
    (hs : Built naming s.record s.graph) (h : Inserts naming c s t) :
    Continued naming s.record s.graph t.record t.graph := by
  have hgranted : ∀ (request : Request) {answer : Answer} {g : Graph},
      request.Admitted naming s.record s.graph → request.perform s.graph = .ok answer g →
      g.size < UInt32.size → Continued naming s.record s.graph (s.record.after request answer) g :=
    fun _ _ _ hadmitted hrun hsize => .request .here hadmitted hrun hsize
  have hleft := hs.coherent.size_lt
  cases h with
  | aside hlater hmethods => exact hlater
  | @add name id g hfilling hrun hsize =>
      exact hgranted (.method c name) True.intro (Build.map_of_ok hrun Answer.id) hsize
  | @fill id method hfilling change =>
      have hsize : (s.graph.modifyMethod id change).size < UInt32.size := by
        rwa [modifyMethod, size_modify]
      exact hgranted (.editMethod id change) True.intro rfl hsize
  | @compare id method dropped g hfilling hrun =>
      have hsize : g.size < UInt32.size := by
        rcases exists_of_dropDuplicate hs.coherent hrun with ⟨-, rfl⟩ | ⟨-, -, -, rfl⟩
        · exact hleft
        · rwa [size_detach]
      exact hgranted (.dropDuplicate c id) True.intro
        (Build.map_of_ok hrun Answer.dropped) hsize

/-! ## What every step keeps -/

/-- What holds of the methods of the container `c` in the course of insertions, where `old` are the
methods that it had before. -/
structure Inserted (c : DeclId) (old : List (DeclId × MethodDecl)) (stage : Stage) : Prop where
  /-- There are the old methods, the first new one of each signature, and the one that is not
  compared yet, all as they were declared. -/
  methods : stage.graph.methods c =
    old ++ firsts old stage.inserted ++ stage.filling.toList
  /-- All other methods that were inserted are without an owner. -/
  dropped : ∀ entry ∈ stage.inserted, entry ∉ firsts old stage.inserted →
    stage.graph.owner? entry.1 = none ∧ stage.graph.kind? entry.1 = some .method

namespace Inserted

variable {naming : Naming} {c : DeclId} {old : List (DeclId × MethodDecl)} {s t : Stage}

theorem start {record : Record} {g : Graph} :
    Inserted c (g.methods c) { record := record, graph := g } where
  methods := by simp [firsts]
  dropped := by simp

/-- Methods that were dropped stay without an owner. -/
theorem dropped_of_grown {removed : List DeclId} (h : Inserted c old s) {g : Graph}
    (hgrown : Grown removed s.graph g) {entry : DeclId × MethodDecl} (hentry : entry ∈ s.inserted)
    (hdropped : entry ∉ firsts old s.inserted) :
    g.owner? entry.1 = none ∧ g.kind? entry.1 = some .method := by
  obtain ⟨howner, hkind⟩ := h.dropped entry hentry hdropped
  have hlt := index_lt_of_kind? hkind
  exact ⟨hgrown.unowned hlt howner, (hgrown.kind? hlt).trans hkind⟩

/-- While a method is filled in it is the last one, and none of the others is in its slot. -/
theorem ne_of_filling (h : Inserted c old s) (hs : Coherent s.graph) {id : DeclId}
    {method : MethodDecl} (hfilling : s.filling = some (id, method)) :
    ∀ entry ∈ old ++ firsts old s.inserted, entry.1 ≠ id := by
  have hnodup := hs.nodup_methods c
  rw [h.methods, hfilling, List.map_append, List.nodup_append] at hnodup
  intro entry hentry
  exact hnodup.2.2 entry.1 (List.mem_map_of_mem hentry) _ (by simp)

/-- A method is filled in by editing it, and nothing else is changed. -/
theorem methods_fill (h : Inserted c old s) (hs : Coherent s.graph) {id : DeclId}
    {method : MethodDecl} (hfilling : s.filling = some (id, method))
    (change : MethodDecl → MethodDecl) : (s.graph.modifyMethod id change).methods c =
      old ++ firsts old s.inserted ++ [(id, change method)] := by
  have hkept : (old ++ firsts old s.inserted).map
      (fun entry => if entry.1 = id then (id, change entry.2) else entry) =
        old ++ firsts old s.inserted := by
    refine (List.map_congr_left fun entry hentry => ?_).trans (List.map_id _)
    rw [if_neg (h.ne_of_filling hs hfilling entry hentry), id_eq]
  rw [methods_modifyMethod, h.methods, hfilling, List.map_append, hkept]
  simp

/-- The graph after a method was added to the container. -/
theorem methods_add (h : Inserted c old s) (hs : Coherent s.graph) {name : Name} {id : DeclId}
    {g : Graph} (hfilling : s.filling = none) (hrun : addMethod c name s.graph = .ok id g) :
    g.methods c = old ++ firsts old s.inserted ++ [(id, ({ name } : MethodDecl))] := by
  have hperform : (Request.method c name).perform s.graph = .ok (.id id) g :=
    Build.map_of_ok hrun Answer.id
  obtain ⟨hcontainer, hid, rfl⟩ := (Request.perform_added_iff rfl).mp hperform
  obtain rfl := Answer.id.inj hid
  rw [(fits_leaf hcontainer rfl).methods hs, h.methods, hfilling, Option.toList_none,
    List.append_nil]
  rfl

/-- What is compared is taken out if there is a method like it, and else it is the first one of its
signature. -/
theorem methods_compare (h : Inserted c old s) (hs : Coherent s.graph) {id : DeclId}
    {method : MethodDecl} {dropped : Bool} {g : Graph} (hfilling : s.filling = some (id, method))
    (hrun : dropDuplicate c id s.graph = .ok dropped g) :
    g.methods c = old ++ firsts old (s.inserted ++ [(id, method)]) ∧
      ((id, method) ∉ firsts old (s.inserted ++ [(id, method)]) →
        g.owner? id = none ∧ g.kind? id = some .method) := by
  have hmethods := h.methods
  rw [hfilling, Option.toList_some] at hmethods
  have hothers := h.ne_of_filling hs hfilling
  have hmember : (id, method) ∈ s.graph.methods c := by
    rw [hmethods]
    exact List.mem_append_right _ List.mem_cons_self
  have hmethod := (mem_methods_iff.mp hmember).2
  have hrest : (s.graph.methods c).filter (fun entry => entry.1 ≠ id) =
      old ++ firsts old s.inserted := by
    rw [hmethods, List.filter_append, List.filter_eq_self.mpr (by simpa using hothers)]
    simp
  rw [hs.dropDuplicate_eq hmember, hrest] at hrun
  rw [hasAlike_append_firsts] at hrun
  rw [firsts_concat]
  split at hrun
  · next halike =>
      injection hrun with _ hg'
      subst hg'
      rw [hs.methods_detach, hrest, if_pos halike, List.append_nil, owner?_detach, if_pos rfl,
        kind?_detach]
      exact ⟨rfl, fun _ => ⟨rfl, isSome_method?_iff.mp (Option.isSome_of_eq_some hmethod)⟩⟩
  · next hnew =>
      injection hrun with _ hg'
      subst hg'
      rw [hmethods, if_neg hnew, List.append_assoc]
      exact ⟨rfl, fun habsent => absurd (List.mem_append_right _ List.mem_cons_self) habsent⟩

/-- One step of a run of insertions keeps what holds of the methods. -/
theorem step (h : Inserted c old s) (hs : Built naming s.record s.graph)
    (hstep : Inserts naming c s t) : Inserted c old t := by
  obtain ⟨removed, -, hgrown⟩ := (hstep.continued hs).grown hs
  cases hstep with
  | aside hlater hmethods =>
      exact ⟨hmethods.trans h.methods, fun entry => h.dropped_of_grown hgrown⟩
  | add hfilling hrun hsize =>
      exact ⟨h.methods_add hs.coherent hfilling hrun, fun entry => h.dropped_of_grown hgrown⟩
  | fill hfilling change =>
      exact ⟨h.methods_fill hs.coherent hfilling change, fun entry => h.dropped_of_grown hgrown⟩
  | compare hfilling hrun =>
      obtain ⟨hmethods, hdropped⟩ := h.methods_compare hs.coherent hfilling hrun
      refine ⟨by rw [hmethods, Option.toList_none, List.append_nil], ?_⟩
      intro entry hentry habsent
      rcases List.mem_append.mp hentry with hbefore | hlast
      · refine h.dropped_of_grown hgrown hbefore fun hin => habsent ?_
        rw [firsts_concat]
        exact List.mem_append_left _ hin
      · obtain rfl := List.mem_singleton.mp hlast
        exact hdropped habsent

end Inserted

/-! ## Whole runs -/

/-- What is done in a run of insertions, one step after the other. -/
abbrev InsertsAll (naming : Naming) (c : DeclId) : Stage → Stage → Prop :=
  Relation.ReflTransGen (Inserts naming c)

/-- A run of insertions is a run of requests and merges. -/
theorem InsertsAll.continued {naming : Naming} {c : DeclId} {s t : Stage}
    (hs : Built naming s.record s.graph) (h : InsertsAll naming c s t) :
    Continued naming s.record s.graph t.record t.graph := by
  induction h with
  | refl => exact .here
  | tail _ hstep ih => exact ih.trans (hstep.continued (ih.built hs))

/-- A run of insertions keeps what holds of the methods. -/
theorem Inserted.run {naming : Naming} {c : DeclId} {old : List (DeclId × MethodDecl)} {s t : Stage}
    (h : Inserted c old s) (hs : Built naming s.record s.graph) (hrun : InsertsAll naming c s t) :
    Inserted c old t := by
  induction hrun with
  | refl => exact h
  | tail hbefore hstep ih => exact ih.step ((InsertsAll.continued hs hbefore).built hs) hstep

/-- The point of a run after a method was added. -/
def Stage.added (s : Stage) (c : DeclId) (name : Name) : Stage :=
  { s with
    graph := s.graph.enlist c (.method { name })
    filling := some (s.graph.nextId, { name }) }

/-- As long as there are slots, a method can be inserted into a container with any contents. -/
theorem exists_insertion {naming : Naming} {c : DeclId} {s : Stage}
    (hs : Built naming s.record s.graph) (hcontainer : (s.graph.key? c).isSome)
    (hfilling : s.filling = none) (hsize : s.graph.size + 1 < UInt32.size)
    (method : MethodDecl) : ∃ t, InsertsAll naming c s t ∧ t.filling = none ∧
      t.inserted = s.inserted ++ [(s.graph.nextId, method)] ∧
      t.graph.size = s.graph.size + 1 := by
  have hleaf : (Decl.method { name := method.name }).key? = none := rfl
  have hadded : Inserts naming c s (s.added c method.name) :=
    .add hfilling (addMember_eq hcontainer hleaf) (by rwa [size_enlist])
  have hadd := (hadded.continued hs).built hs
  have hfilled : Inserts naming c (s.added c method.name) _ := .fill rfl fun _ => method
  have hfill := (hfilled.continued hadd).built hadd
  have hmember : (s.graph.nextId, method) ∈
      ((s.added c method.name).graph.modifyMethod s.graph.nextId fun _ => method).methods c := by
    rw [methods_modifyMethod, Stage.added, (fits_leaf hcontainer hleaf).methods hs.coherent]
    simp [Decl.method?]
  have hsizeFilled : ((s.added c method.name).graph.modifyMethod s.graph.nextId
      fun _ => method).size = s.graph.size + 1 := by
    rw [modifyMethod, size_modify, Stage.added, size_enlist]
  obtain ⟨dropped, g, hdrop, hsizeDropped⟩ : ∃ dropped g, dropDuplicate c s.graph.nextId
      ((s.added c method.name).graph.modifyMethod s.graph.nextId fun _ => method) =
        .ok dropped g ∧ g.size = s.graph.size + 1 := by
    rw [hfill.coherent.dropDuplicate_eq hmember]
    split
    · exact ⟨true, _, rfl, by rw [size_detach, hsizeFilled]⟩
    · exact ⟨false, _, rfl, hsizeFilled⟩
  have hrun := (Relation.ReflTransGen.single hadded).tail hfilled
  exact ⟨_, hrun.tail (.compare rfl hdrop), rfl, rfl, hsizeDropped⟩

/-- These methods, each with the slot that it gets where no other is taken meanwhile. -/
def allotted (g : Graph) (declared : List MethodDecl) : List (DeclId × MethodDecl) :=
  (declared.zipIdx g.size).map fun entry => (DeclId.ofIndex entry.2, entry.1)

/-- As long as there are slots, any methods can be inserted into a container, one after the
other. -/
theorem exists_insertions {naming : Naming} {c : DeclId} {s : Stage}
    (hs : Built naming s.record s.graph) (hcontainer : (s.graph.key? c).isSome)
    (hfilling : s.filling = none) (declared : List MethodDecl)
    (hsize : s.graph.size + declared.length < UInt32.size) :
    ∃ t, InsertsAll naming c s t ∧ t.filling = none ∧
      t.inserted = s.inserted ++ allotted s.graph declared := by
  induction declared generalizing s with
  | nil => exact ⟨s, .refl, hfilling, (List.append_nil _).symm⟩
  | cons method rest ih =>
      rw [List.length_cons] at hsize
      obtain ⟨t, hfirst, htFilling, htInserted, htSize⟩ :=
        exists_insertion hs hcontainer hfilling (by omega) method
      have hlater := InsertsAll.continued hs hfirst
      obtain ⟨removed, -, hgrown⟩ := hlater.grown hs
      obtain ⟨u, hrest, huFilling, huInserted⟩ := ih (hlater.built hs)
        (hgrown.isSome_key? hcontainer) htFilling (by omega)
      refine ⟨u, hfirst.trans hrest, huFilling, ?_⟩
      rw [huInserted, htInserted, List.append_assoc, allotted, allotted, htSize, List.zipIdx_cons]
      rfl

/-- What methods and other members a container has after a run of insertions from `g` to `t`. -/
structure Deduplicated (naming : Naming) (c : DeclId) (record : Record) (g : Graph) (t : Stage) :
    Prop where
  /-- After the methods that were there stand the first new ones of each signature. -/
  methods : t.graph.methods c = g.methods c ++ firsts (g.methods c) t.inserted
  /-- Where the methods were pairwise different, they are so still. -/
  differ : ((g.methods c).Pairwise fun a b => ¬ a.2.Alike b.2) →
    (t.graph.methods c).Pairwise fun a b => ¬ a.2.Alike b.2
  /-- Every other member that was there at any point of the run is there in its order. -/
  others : ∀ stage, InsertsAll naming c { record, graph := g } stage →
    InsertsAll naming c stage t → stage.graph.others c <+: t.graph.others c
  /-- The methods that were taken out again are not attached, and can be read as methods. -/
  dropped : ∀ entry ∈ t.inserted, entry ∉ firsts (g.methods c) t.inserted →
    t.graph.isAttached entry.1 = false ∧ (t.graph.method? entry.1).isSome
  /-- As long as there are slots, any further methods can be inserted, whatever they declare. -/
  further : (g.key? c).isSome → ∀ declared : List MethodDecl,
    t.graph.size + declared.length < UInt32.size →
    ∃ u, InsertsAll naming c t u ∧ u.filling = none ∧
      u.inserted = t.inserted ++ allotted t.graph declared

/-- **Insertions keep the first of each signature.**  Methods are inserted into a container of a
built graph, one after the other, and in between its methods are left alone.  When all of them were
compared, the container has its old methods and after them the first new one of each signature, each
as it was declared when it was added and filled in. -/
theorem Built.insertions {naming : Naming} {record : Record} {g : Graph} {c : DeclId} {t : Stage}
    (hg : Built naming record g) (hrun : InsertsAll naming c { record, graph := g } t)
    (hdone : t.filling = none) : Deduplicated naming c record g t := by
  have hinserted := Inserted.start.run hg hrun
  have hlater := InsertsAll.continued hg hrun
  have ht := hlater.built hg
  have hmethods := hinserted.methods
  rw [hdone, Option.toList_none, List.append_nil] at hmethods
  refine ⟨hmethods, ?_, ?_, ?_, ?_⟩
  · intro hdiffer
    rw [hmethods]
    exact pairwise_append_firsts hdiffer _
  · intro stage hbefore hafter
    have hstage := (InsertsAll.continued hg hbefore).built hg
    obtain ⟨removed, -, hgrown⟩ := (InsertsAll.continued hstage hafter).grown hstage
    exact hgrown.others_prefix hstage.coherent c
  · intro entry hentry hdropped
    obtain ⟨howner, hkind⟩ := hinserted.dropped entry hentry hdropped
    refine ⟨?_, isSome_method?_iff.mpr hkind⟩
    have hroot : entry.1 ≠ root := by
      intro hroot
      rw [hroot, kind?_of_key? ht.coherent.key?_root] at hkind
      contradiction
    simp [isAttached, hroot, howner]
  · intro hcontainer declared hsize
    obtain ⟨removed, -, hgrown⟩ := hlater.grown hg
    exact exists_insertions ht (hgrown.isSome_key? hcontainer) hdone declared hsize

/-- Three methods are inserted beside one of their name.  The second is like the first, as only the
type of its parameter differs, and the third is not, as its parameter has another name. -/
theorem insertions_of_repeated : ∃ record g t, Built issuedName record g ∧
    InsertsAll issuedName ⟨1⟩ { record, graph := g } t ∧ t.filling = none ∧
    t.inserted = [
      (⟨3⟩, { name := ⟨"m"⟩, params := [{ name := ⟨"x"⟩, type := .any }] }),
      (⟨4⟩, { name := ⟨"m"⟩, params := [{ name := ⟨"x"⟩, type := .dynamic }] }),
      (⟨5⟩, { name := ⟨"m"⟩, params := [{ name := ⟨"y"⟩, type := .any }] })] ∧
    t.graph.methods ⟨1⟩ = [
      (⟨2⟩, { name := ⟨"m"⟩ }),
      (⟨3⟩, { name := ⟨"m"⟩, params := [{ name := ⟨"x"⟩, type := .any }] }),
      (⟨5⟩, { name := ⟨"m"⟩, params := [{ name := ⟨"y"⟩, type := .any }] })] ∧
    t.graph.isAttached ⟨4⟩ = false ∧ (t.graph.method? ⟨4⟩).isSome ∧
    Deduplicated issuedName ⟨1⟩ record g t := by
  have hg := built_played [.klass root ⟨"C"⟩, .method ⟨1⟩ ⟨"m"⟩] rfl
  obtain ⟨t, hrun, hdone, hinserted⟩ := exists_insertions (c := ⟨1⟩) (s := ⟨_, _, none, []⟩) hg rfl
    rfl [
      { name := ⟨"m"⟩, params := [{ name := ⟨"x"⟩, type := .any }] },
      { name := ⟨"m"⟩, params := [{ name := ⟨"x"⟩, type := .dynamic }] },
      { name := ⟨"m"⟩, params := [{ name := ⟨"y"⟩, type := .any }] }] (by decide +kernel)
  have hresult := Built.insertions hg hrun hdone
  have hdropped := hresult.dropped (⟨4⟩, _) (by rw [hinserted]; exact .tail _ (.head _))
    (by rw [hinserted]; decide +kernel)
  refine ⟨_, _, t, hg, hrun, hdone, hinserted, ?_, hdropped.1, hdropped.2, hresult⟩
  rw [hresult.methods, hinserted]
  decide +kernel

end DeclGraph
