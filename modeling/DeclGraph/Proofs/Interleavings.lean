import DeclGraph.Proofs.Interchange
import DeclGraph.Proofs.Scripts

/-!
# Interleaved work

Workers build one graph together.  Each of them has errands of its own, and each errand
refers to what was there before they began and to what earlier errands of the same
worker were answered with.  If no two workers have errands in one container, it does not
matter how their errands are interleaved: whatever order keeps the errands of every
worker in their order, all are answered alike, and the graphs are the same up to the
numbers of the new slots.

Main results:

- Theorem `Progress.Alike.run`: runs that differ in the numbers of slots go on alike.
- Theorem `Progress.Sound.interchange`: errands of two workers can change places.
- Theorem `Progress.Sound.hasten`: an errand can be done before errands of others.
- Theorem `Built.interleavings_agree`: interleavings of the same errands agree.
-/

namespace DeclGraph

open DeclGraph.Graph

/-! ## Errands -/

/-- What an errand refers to. -/
inductive Operand
  /-- A declaration that was there before. -/
  | given (id : DeclId)
  /-- The declaration that an earlier errand of the same worker was answered with. -/
  | answer (errand : Nat)
deriving DecidableEq

/-- What is to be done in a container. -/
inductive Task
  /-- The package of a name. -/
  | package (name : Name)
  /-- The class of a name. -/
  | klass (name : Name)
  /-- The object of a name. -/
  | object (name : Name)
  /-- A new field. -/
  | field (name : Name)
  /-- A new method. -/
  | method (name : Name)
  /-- A new comment. -/
  | comment (text : String)
  /-- An anonymous name. -/
  | issueName
  /-- Take out a method that is there twice. -/
  | dropDuplicate (id : Operand)
deriving DecidableEq

/-- A task in a container. -/
structure Errand where
  /-- The container. -/
  container : Operand
  /-- What is to be done there. -/
  task : Task
deriving DecidableEq

/-- The declaration that an operand stands for after the answers so far. -/
def Operand.id? (answers : List Answer) : Operand → Option DeclId
  | given id => some id
  | answer errand => answers[errand]?.bind Answer.id?

/-- Is this one of the first `n` slots or an answer? -/
def Operand.Within (n : Nat) : Operand → Prop
  | given id => id.index < n
  | answer _ => True

instance (n : Nat) (operand : Operand) : Decidable (operand.Within n) :=
  match operand with
  | .given id => inferInstanceAs (Decidable (id.index < n))
  | .answer _ => inferInstanceAs (Decidable True)

/-- The request that a task stands for in a container, after the answers so far. -/
def Task.request? (answers : List Answer) (container : DeclId) : Task → Option Request
  | package name => some (.package container name)
  | klass name => some (.klass container name)
  | object name => some (.object container name)
  | field name => some (.field container name)
  | method name => some (.method container name)
  | comment text => some (.comment container text)
  | issueName => some (.issueName container)
  | dropDuplicate id => (id.id? answers).map (Request.dropDuplicate container)

/-- What a task refers to beside its container. -/
def Task.operands : Task → List Operand
  | dropDuplicate id => [id]
  | _ => []

namespace Errand

/-- The request that an errand stands for after the answers so far. -/
def request? (answers : List Answer) (errand : Errand) : Option Request :=
  (errand.container.id? answers).bind fun container => errand.task.request? answers container

/-- What an errand refers to. -/
def operands (errand : Errand) : List Operand :=
  errand.container :: errand.task.operands

/-- Does the errand refer to nothing but the first `n` slots and answers? -/
def Within (n : Nat) (errand : Errand) : Prop :=
  ∀ operand ∈ errand.operands, operand.Within n

instance (n : Nat) (errand : Errand) : Decidable (errand.Within n) :=
  inferInstanceAs (Decidable (∀ operand ∈ errand.operands, operand.Within n))

end Errand

/-! ## Runs -/

/-- How far workers have come. -/
structure Progress (Worker : Type) where
  /-- What each worker was answered. -/
  answers : Worker → List Answer
  /-- What they have built. -/
  graph : Graph

variable {Worker : Type}

/-- Do the workers of two turns work in different containers, unless they are the same worker? -/
def Apart (answers : Worker → List Answer) (a b : Worker × Errand) : Prop :=
  a.1 ≠ b.1 → a.2.container.id? (answers a.1) ≠ b.2.container.id? (answers b.1)

instance [DecidableEq Worker] (answers : Worker → List Answer) (a b : Worker × Errand) :
    Decidable (Apart answers a b) :=
  inferInstanceAs (Decidable (a.1 ≠ b.1 → _ ≠ _))

namespace Progress

/-- No worker has begun. -/
def start (g : Graph) : Progress Worker :=
  ⟨fun _ => [], g⟩

variable [DecidableEq Worker]

/-- What each worker was answered, once one of them got one more answer. -/
def tell (answers : Worker → List Answer) (worker : Worker) (answer : Answer) :
    Worker → List Answer :=
  Function.update answers worker (answers worker ++ [answer])

/-- It is the turn of a worker, with an errand. -/
def step (state : Progress Worker) (turn : Worker × Errand) : Option (Progress Worker) :=
  (turn.2.request? (state.answers turn.1)).bind fun request =>
    match request.perform state.graph with
    | .ok answer g =>
        if g.size < UInt32.size then some ⟨tell state.answers turn.1 answer, g⟩ else none
    | .error _ _ => none

/-- One turn after the other. -/
def run (state : Progress Worker) (turns : List (Worker × Errand)) : Option (Progress Worker) :=
  turns.foldlM step state

end Progress

/-! ## What errands stand for -/

section Requests

variable {answers : List Answer}

/-- An errand stands for a request of its container that mentions nothing but its operands. -/
theorem Errand.exists_of_request? {errand : Errand} {request : Request}
    (h : errand.request? answers = some request) :
    ∃ c, errand.container.id? answers = some c ∧ request.target? = some c ∧
      ∀ id, request.mention? = some id → ∃ operand ∈ errand.operands,
        operand.id? answers = some id := by
  obtain ⟨c, hc, htask⟩ := Option.bind_eq_some_iff.mp h
  refine ⟨c, hc, ?_⟩
  cases hcase : errand.task with
  | dropDuplicate id =>
      rw [hcase] at htask
      obtain ⟨member, hmember, rfl⟩ := Option.map_eq_some_iff.mp htask
      refine ⟨rfl, fun other hother => ⟨id, ?_, ?_⟩⟩
      · simp [Errand.operands, hcase, Task.operands]
      · rw [hmember, ← hother, Request.mention?]
  | _ =>
      rw [hcase] at htask
      obtain rfl := Option.some.inj htask
      exact ⟨rfl, nofun⟩

/-- What an operand stands for it stands for after further answers. -/
theorem Operand.id?_of_prefix {later : List Answer} (hlater : answers <+: later)
    {operand : Operand} {id : DeclId} (h : operand.id? answers = some id) :
    operand.id? later = some id := by
  cases operand with
  | given => exact h
  | answer errand =>
      obtain ⟨answer, hanswer, hid⟩ := Option.bind_eq_some_iff.mp h
      obtain ⟨further, rfl⟩ := hlater
      have hlt := (List.getElem?_eq_some_iff.mp hanswer).1
      rw [Operand.id?, List.getElem?_append_left hlt, hanswer, Option.bind_some, hid]

variable {f : DeclId → DeclId} {n : Nat} (hfixed : ∀ id : DeclId, id.index < n → f id = id)

include hfixed

/-- With other ids in the answers an operand stands for another id. -/
theorem Operand.id?_renumber {operand : Operand} (hwithin : operand.Within n) :
    operand.id? (answers.map (Answer.renumber f)) = (operand.id? answers).map f := by
  cases operand with
  | given id => rw [Operand.id?, Operand.id?, Option.map_some, hfixed id hwithin]
  | answer errand => exact Answer.id?_getElem?_renumber f answers errand

/-- With other ids in the answers an errand stands for the same request about other ids. -/
theorem Errand.request?_renumber {errand : Errand} (hwithin : errand.Within n) :
    errand.request? (answers.map (Answer.renumber f)) =
      (errand.request? answers).map (Request.renumber f) := by
  have hoperand : ∀ operand ∈ errand.operands,
      operand.id? (answers.map (Answer.renumber f)) = (operand.id? answers).map f :=
    fun operand hmem => Operand.id?_renumber hfixed (hwithin operand hmem)
  rw [Errand.request?, hoperand _ List.mem_cons_self, Option.bind_map, Errand.request?,
    Option.map_bind]
  congr 1
  funext c
  cases hcase : errand.task with
  | dropDuplicate id =>
      have hid := hoperand id (by simp [Errand.operands, hcase, Task.operands])
      simp only [Function.comp_apply, Task.request?, hid, Option.map_map]
      rfl
  | _ => rfl

end Requests

/-- What is answered with is in the graph afterwards. -/
theorem Graph.Coherent.index_answer_lt {g g' : Graph} (hg : Coherent g) {request : Request}
    {c id : DeclId} (htarget : request.target? = some c)
    (hrun : request.perform g = .ok (.id id) g') : id.index < g'.size := by
  cases request with
  | package container name | klass container name | object container name =>
      obtain ⟨-, hid, rfl⟩ := (Request.perform_wanted_iff rfl).mp hrun
      obtain rfl := Answer.id.inj hid
      exact (hg.index_ensured_lt container _).1
  | field container name | method container name | comment container text =>
      obtain ⟨-, hid, rfl⟩ := (Request.perform_added_iff rfl).mp hrun
      obtain rfl := Answer.id.inj hid
      rw [size_enlist, index_nextId hg.size_lt]
      exact Nat.lt_succ_self _
  | issueName | dropDuplicate =>
      obtain ⟨_, -, hanswer⟩ := Build.exists_of_map_eq_ok hrun
      contradiction
  | _ => contradiction

namespace Progress

/-! ## Answers -/

section Answers

variable [DecidableEq Worker] (answers : Worker → List Answer) (worker : Worker) (answer : Answer)

theorem tell_self : tell answers worker answer worker = answers worker ++ [answer] :=
  Function.update_self worker _ answers

theorem tell_of_ne {other : Worker} (h : other ≠ worker) :
    tell answers worker answer other = answers other :=
  Function.update_of_ne h _ answers

/-- No answer is taken back. -/
theorem prefix_tell (other : Worker) : answers other <+: tell answers worker answer other := by
  by_cases h : other = worker
  · rw [h, tell_self]
    exact List.prefix_append _ _
  · simp [tell_of_ne answers worker answer h]

/-- Answers to different workers do not depend on their order. -/
theorem tell_comm {other : Worker} (h : other ≠ worker) (answer' : Answer) :
    tell (tell answers worker answer) other answer' =
      tell (tell answers other answer') worker answer := by
  rw [tell, tell_of_ne answers worker answer h, tell, tell, tell_of_ne answers other answer' h.symm,
    Function.update_comm h.symm, tell]

/-- Other ids come into the answers with every answer. -/
theorem map_tell (f : DeclId → DeclId) :
    (fun other => (tell answers worker answer other).map (Answer.renumber f)) =
      tell (fun other => (answers other).map (Answer.renumber f)) worker (answer.renumber f) := by
  funext other
  by_cases h : other = worker
  · rw [h, tell_self, tell_self, List.map_append, List.map_singleton]
  · rw [tell_of_ne _ _ _ h, tell_of_ne _ _ _ h]

end Answers

/-! ## What a run keeps -/

/-- What is built is coherent, and there are slots for all that the workers can refer to. -/
structure Sound (n : Nat) (state : Progress Worker) : Prop where
  coherent : Coherent state.graph
  indexed : Indexed state.graph
  /-- The slots that were there before are still there. -/
  size_le : n ≤ state.graph.size
  /-- Whatever a worker was answered with is there. -/
  known : ∀ {worker : Worker} {id : DeclId}, .id id ∈ state.answers worker →
    id.index < state.graph.size

variable {n : Nat} {s s' t : Progress Worker} {turn : Worker × Errand}

namespace Sound

/-- What an operand stands for is there. -/
theorem index_lt (hs : Sound n s) {operand : Operand} (hwithin : operand.Within n)
    {worker : Worker} {id : DeclId} (hid : operand.id? (s.answers worker) = some id) :
    id.index < s.graph.size := by
  cases operand with
  | given given =>
      obtain rfl := Option.some.inj hid
      exact Nat.lt_of_lt_of_le hwithin hs.size_le
  | answer errand =>
      obtain ⟨answer, hanswer, hanswered⟩ := Option.bind_eq_some_iff.mp hid
      cases answer <;> simp only [Answer.id?, Option.some.injEq, reduceCtorEq] at hanswered
      rw [← hanswered]
      exact hs.known (List.mem_of_getElem? hanswer)

/-- An errand stands for a request of a container that is there, and mentions nothing else but what
is there. -/
theorem exists_of_request? (hs : Sound n s) {worker : Worker} {errand : Errand}
    (hwithin : errand.Within n) {request : Request}
    (h : errand.request? (s.answers worker) = some request) :
    ∃ c, errand.container.id? (s.answers worker) = some c ∧ request.target? = some c ∧
      c.index < s.graph.size ∧ ∀ id, request.mention? = some id → id.index < s.graph.size := by
  have hthere : ∀ operand ∈ errand.operands, ∀ id, operand.id? (s.answers worker) = some id →
      id.index < s.graph.size :=
    fun operand hmem id hid => hs.index_lt (hwithin operand hmem) hid
  obtain ⟨c, hc, htarget, hmention⟩ := Errand.exists_of_request? h
  refine ⟨c, hc, htarget, hthere _ List.mem_cons_self c hc, fun id hid => ?_⟩
  obtain ⟨operand, hmem, hoperand⟩ := hmention id hid
  exact hthere operand hmem id hoperand

/-- Answers stay what they are if the slots that are there do. -/
theorem map_answers (hs : Sound n s) {f : DeclId → DeclId}
    (hfixed : ∀ id : DeclId, id.index < s.graph.size → f id = id) :
    (fun worker => (s.answers worker).map (Answer.renumber f)) = s.answers := by
  funext worker
  refine (List.map_congr_left fun answer hanswer => ?_).trans (List.map_id' _)
  cases answer with
  | id id => rw [Answer.renumber, hfixed id (hs.known hanswer)]
  | _ => rfl

end Sound

section Turns

variable [DecidableEq Worker]

/-- A turn leads on if its request is granted and there is a slot for what it makes. -/
theorem step_eq_some_iff : s.step turn = some s' ↔ ∃ request answer,
    turn.2.request? (s.answers turn.1) = some request ∧
      request.perform s.graph = .ok answer s'.graph ∧ s'.graph.size < UInt32.size ∧
      s'.answers = tell s.answers turn.1 answer := by
  rw [step, Option.bind_eq_some_iff]
  refine exists_congr fun request => ?_
  rw [exists_and_left]
  refine and_congr_right fun _ => ?_
  cases hrun : request.perform s.graph with
  | error violation g => simp
  | ok answer g =>
      constructor
      · intro hstep
        dsimp only at hstep
        split at hstep
        · next hsize =>
            obtain rfl := Option.some.inj hstep
            exact ⟨answer, rfl, hsize, rfl⟩
        · contradiction
      · rintro ⟨answer', hsame, hsize, hanswers⟩
        obtain ⟨rfl, rfl⟩ := EStateM.Result.ok.inj hsame
        simp only [hsize, if_true, ← hanswers]

/-- The first turn is taken, and then the others. -/
theorem run_cons_eq_some_iff {turns : List (Worker × Errand)} :
    s.run (turn :: turns) = some t ↔ ∃ next, s.step turn = some next ∧ next.run turns = some t := by
  rw [run, List.foldlM_cons]
  exact Option.bind_eq_some_iff

/-- Some turns are taken, and then the others. -/
theorem run_append_eq_some_iff {first second : List (Worker × Errand)} :
    s.run (first ++ second) = some t ↔
      ∃ next, s.run first = some next ∧ next.run second = some t := by
  rw [run, List.foldlM_append]
  exact Option.bind_eq_some_iff

/-- No run takes an answer back. -/
theorem prefix_of_run {turns : List (Worker × Errand)} (h : s.run turns = some t)
    (worker : Worker) : s.answers worker <+: t.answers worker := by
  induction turns generalizing s with
  | nil =>
      obtain rfl := Option.some.inj h
      exact List.prefix_refl _
  | cons turn turns ih =>
      obtain ⟨next, hnext, hrest⟩ := run_cons_eq_some_iff.mp h
      obtain ⟨request, answer, -, -, -, hanswers⟩ := step_eq_some_iff.mp hnext
      have htold := prefix_tell s.answers turn.1 answer worker
      rw [← hanswers] at htold
      exact htold.trans (ih hrest)

namespace Sound

/-- A turn keeps all that. -/
theorem step (hs : Sound n s) (h : s.step turn = some s') : Sound n s' := by
  obtain ⟨request, answer, hrequest, hrun, hsize, hanswers⟩ := step_eq_some_iff.mp h
  obtain ⟨c, -, htarget, -⟩ := Errand.exists_of_request? hrequest
  have hgrown := (hs.coherent.touches htarget hrun).size_le
  exact {
    coherent := hs.coherent.perform htarget hrun hsize
    indexed := hs.indexed.perform hs.coherent htarget hrun
    size_le := Nat.le_trans hs.size_le hgrown
    known := by
      intro worker id hid
      rw [hanswers] at hid
      by_cases hworker : worker = turn.1
      · rw [hworker, tell_self, List.mem_append, List.mem_singleton] at hid
        rcases hid with hold | rfl
        · exact Nat.lt_of_lt_of_le (hs.known hold) hgrown
        · exact hs.coherent.index_answer_lt htarget hrun
      · rw [tell_of_ne _ _ _ hworker] at hid
        exact Nat.lt_of_lt_of_le (hs.known hid) hgrown }

/-- A run keeps all that. -/
theorem run (hs : Sound n s) {turns : List (Worker × Errand)} (h : s.run turns = some t) :
    Sound n t := by
  induction turns generalizing s with
  | nil =>
      obtain rfl := Option.some.inj h
      exact hs
  | cons turn turns ih =>
      obtain ⟨next, hnext, hrest⟩ := run_cons_eq_some_iff.mp h
      exact ih (hs.step hnext) hrest

end Sound
end Turns

/-! ## Runs with other slots -/

/-- Up to the numbers of the slots after the first `n`, workers have come as far in the one as in
the other. -/
structure Alike (n : Nat) (f : Equiv.Perm DeclId) (s t : Progress Worker) : Prop where
  fixed : ∀ id : DeclId, id.index < n → f id = id
  permuted : Permuted f s.graph t.graph
  answers : t.answers = fun worker => (s.answers worker).map (Answer.renumber f)

namespace Alike

variable {f f' : Equiv.Perm DeclId} {u : Progress Worker}

theorem refl (n : Nat) (s : Progress Worker) : Alike n (Equiv.refl DeclId) s s where
  fixed := fun _ _ => rfl
  permuted := Permuted.refl s.graph
  answers := by
    have hid : Answer.renumber (Equiv.refl DeclId) = id := by
      funext answer
      cases answer <;> rfl
    simp only [hid, List.map_id]

theorem trans (hfirst : Alike n f s t) (hsecond : Alike n f' t u) :
    Alike n (f.trans f') s u where
  fixed := fun id hid => by rw [Equiv.trans_apply, hfirst.fixed id hid, hsecond.fixed id hid]
  permuted := hfirst.permuted.trans hsecond.permuted
  answers := by
    rw [hsecond.answers, hfirst.answers]
    funext worker
    rw [List.map_map]
    congr 1
    funext answer
    cases answer <;> rfl

/-- What is apart in the one is apart in the other. -/
theorem apart (h : Alike n f s t) {a b : Worker × Errand} (ha : a.2.Within n) (hb : b.2.Within n)
    (hapart : Apart s.answers a b) : Apart t.answers a b := by
  have hcontainer : ∀ turn : Worker × Errand, turn.2.Within n →
      turn.2.container.id? (t.answers turn.1) =
        (turn.2.container.id? (s.answers turn.1)).map f := by
    intro turn hturn
    rw [h.answers, Operand.id?_renumber h.fixed (hturn _ List.mem_cons_self)]
  intro hworkers
  rw [hcontainer a ha, hcontainer b hb]
  exact (Option.map_injective f.injective).ne (hapart hworkers)

variable [DecidableEq Worker]

/-- A turn leads on in both. -/
theorem step (h : Alike n f s t) (hs : Sound n s) (ht : Sound n t) (hwithin : turn.2.Within n)
    (hstep : s.step turn = some s') : ∃ t', t.step turn = some t' ∧ Alike n f s' t' := by
  obtain ⟨request, answer, hrequest, hrun, hsize, hanswers⟩ := step_eq_some_iff.mp hstep
  obtain ⟨c, -, htarget, -⟩ := Errand.exists_of_request? hrequest
  obtain ⟨g, hrun', hpermuted⟩ := h.permuted.perform hs.coherent ht.coherent htarget hrun
  have hrequest' : turn.2.request? (t.answers turn.1) = some (request.renumber f) := by
    rw [h.answers, Errand.request?_renumber h.fixed hwithin, hrequest, Option.map_some]
  have htold : tell t.answers turn.1 (answer.renumber f) =
      fun worker => (s'.answers worker).map (Answer.renumber f) := by
    rw [hanswers, map_tell, h.answers]
  rw [← hpermuted.size] at hsize
  exact ⟨⟨_, g⟩, step_eq_some_iff.mpr ⟨_, _, hrequest', hrun', hsize, rfl⟩,
    h.fixed, hpermuted, htold⟩

/-- Turns lead on in both, one after the other. -/
theorem run (h : Alike n f s t) (hs : Sound n s) (ht : Sound n t)
    {turns : List (Worker × Errand)} (hwithin : ∀ turn ∈ turns, turn.2.Within n)
    (hrun : s.run turns = some s') : ∃ t', t.run turns = some t' ∧ Alike n f s' t' := by
  induction turns generalizing s t with
  | nil =>
      obtain rfl := Option.some.inj hrun
      exact ⟨t, rfl, h⟩
  | cons turn turns ih =>
      obtain ⟨hturn, hturns⟩ := List.forall_mem_cons.mp hwithin
      obtain ⟨next, hnext, hrest⟩ := run_cons_eq_some_iff.mp hrun
      obtain ⟨next', hnext', halike⟩ := h.step hs ht hturn hnext
      obtain ⟨t', hrest', hdone⟩ := ih halike (hs.step hnext) (ht.step hnext') hturns hrest
      exact ⟨t', run_cons_eq_some_iff.mpr ⟨next', hnext', hrest'⟩, hdone⟩

end Alike

/-! ## Turns that change places -/

namespace Sound

variable [DecidableEq Worker]

/-- Two workers that work in different containers can take their turns in either order. -/
theorem interchange (hs : Sound n s) {a b : Worker × Errand} (ha : a.2.Within n)
    (hb : b.2.Within n) (hworkers : a.1 ≠ b.1)
    (hapart : ∀ {c d}, a.2.container.id? (s.answers a.1) = some c →
      b.2.container.id? (s.answers b.1) = some d → c ≠ d)
    {s₁ s₁₂ : Progress Worker} (hfirst : s.step a = some s₁) (hsecond : s₁.step b = some s₁₂) :
    ∃ f t₁ t₁₂, s.step b = some t₁ ∧ t₁.step a = some t₁₂ ∧ Alike n f s₁₂ t₁₂ := by
  obtain ⟨first, answer₁, hrequest₁, hrun₁, -, hanswers₁⟩ := step_eq_some_iff.mp hfirst
  obtain ⟨second, answer₂, hrequest₂, hrun₂, hsize, hanswers₂⟩ := step_eq_some_iff.mp hsecond
  -- The second worker would have asked for the same before the first one did.
  rw [hanswers₁, tell_of_ne _ _ _ hworkers.symm] at hrequest₂
  obtain ⟨c, hc, htarget₁, hcThere, hmention₁⟩ := hs.exists_of_request? ha hrequest₁
  obtain ⟨d, hd, htarget₂, hdThere, hmention₂⟩ := hs.exists_of_request? hb hrequest₂
  obtain ⟨f, g₂, g₂₁, hfixed, hrun₂', hrun₁', hpermuted⟩ :=
    hs.coherent.interchange (hs.step hfirst).coherent htarget₁ htarget₂ (hapart hc hd) hcThere
      hdThere hmention₁ hmention₂ hrun₁ hrun₂ hsize
  rw [← hpermuted.size] at hsize
  have hgrown := first.fills.growing g₂
  rw [Build.final_of_ok hrun₁'] at hgrown
  have hrequest₁' : a.2.request? (tell s.answers b.1 (answer₂.renumber f) a.1) = some first := by
    rwa [tell_of_ne _ _ _ hworkers]
  have hanswers : tell (tell s.answers b.1 (answer₂.renumber f)) a.1 (answer₁.renumber f) =
      fun worker => (s₁₂.answers worker).map (Answer.renumber f) := by
    rw [hanswers₂, map_tell, hanswers₁, map_tell, hs.map_answers hfixed, tell_comm _ _ _ hworkers]
  exact ⟨f, ⟨_, g₂⟩, ⟨_, g₂₁⟩,
    step_eq_some_iff.mpr ⟨_, _, hrequest₂, hrun₂', Nat.lt_of_le_of_lt hgrown hsize, rfl⟩,
    step_eq_some_iff.mpr ⟨_, _, hrequest₁', hrun₁', hsize, rfl⟩,
    fun id hid => hfixed id (Nat.lt_of_lt_of_le hid hs.size_le), hpermuted, hanswers⟩

/-- A turn can be taken before those of other workers that work in different containers. -/
theorem hasten (hs : Sound n s) {front : List (Worker × Errand)}
    (hfront : ∀ a ∈ front, a.2.Within n) (hturn : turn.2.Within n)
    (hothers : ∀ a ∈ front, a.1 ≠ turn.1) {final : Worker → List Answer}
    (hapart : ∀ a ∈ front, Apart final a turn) (hrun : s.run (front ++ [turn]) = some s')
    (hfinal : ∀ worker, s'.answers worker <+: final worker) :
    ∃ f t, s.run (turn :: front) = some t ∧ Alike n f s' t := by
  induction front generalizing s with
  | nil => exact ⟨_, s', hrun, Alike.refl n s'⟩
  | cons a front ih =>
      obtain ⟨ha, hfront⟩ := List.forall_mem_cons.mp hfront
      obtain ⟨hworkers, hothers⟩ := List.forall_mem_cons.mp hothers
      obtain ⟨hapartHead, hapart⟩ := List.forall_mem_cons.mp hapart
      obtain ⟨s₁, hfirst, hrest⟩ := run_cons_eq_some_iff.mp hrun
      obtain ⟨f, t, ht, halike⟩ := ih (hs.step hfirst) hfront hothers hapart hrest
      obtain ⟨s₂, hsecond, hlast⟩ := run_cons_eq_some_iff.mp ht
      -- Now the turn comes right after the one at the head.
      have hcontainers : ∀ {c d}, a.2.container.id? (s.answers a.1) = some c →
          turn.2.container.id? (s.answers turn.1) = some d → c ≠ d := by
        rintro c _ hc hd rfl
        have hlater : ∀ worker, s.answers worker <+: final worker :=
          fun worker => (prefix_of_run hrun worker).trans (hfinal worker)
        apply hapartHead hworkers
        rw [Operand.id?_of_prefix (hlater _) hc, Operand.id?_of_prefix (hlater _) hd]
      obtain ⟨f', u₁, u₂, hu₁, hu₂, hswapped⟩ :=
        hs.interchange ha hturn hworkers hcontainers hfirst hsecond
      obtain ⟨u, hu, hdone⟩ := hswapped.run ((hs.step hfirst).step hsecond)
        ((hs.step hu₁).step hu₂) hfront hlast
      exact ⟨_, u, run_cons_eq_some_iff.mpr ⟨u₁, hu₁, run_cons_eq_some_iff.mpr ⟨u₂, hu₂, hu⟩⟩,
        halike.trans hdone⟩

/-- The first turn of the one order comes in the other one after turns of other workers only, and
without it the two orders still keep the order of each worker. -/
theorem exists_append_of_filter_eq {rest turns : List (Worker × Errand)}
    (hsame : ∀ worker, (turn :: rest).filter (·.1 = worker) = turns.filter (·.1 = worker)) :
    ∃ front back, turns = front ++ turn :: back ∧ (∀ a ∈ front, a.1 ≠ turn.1) ∧
      ∀ worker, rest.filter (·.1 = worker) = (front ++ back).filter (·.1 = worker) := by
  have hhead : turns.filter (·.1 = turn.1) = turn :: rest.filter (·.1 = turn.1) := by
    rw [← hsame, List.filter_cons_of_pos (by simp)]
  obtain ⟨front, back, rfl, hothers, -, hback⟩ := List.filter_eq_cons_iff.mp hhead
  have hothers : ∀ a ∈ front, a.1 ≠ turn.1 := by simpa using hothers
  refine ⟨front, back, rfl, hothers, fun worker => ?_⟩
  by_cases hworker : turn.1 = worker
  · have hnone : front.filter (·.1 = worker) = [] :=
      List.filter_eq_nil_iff.mpr fun a ha => by simpa [← hworker] using hothers a ha
    rw [List.filter_append, hnone, ← hworker, hback, List.nil_append]
  · have htail := hsame worker
    rwa [List.filter_cons_of_neg (by simpa using hworker), List.filter_append,
      List.filter_cons_of_neg (by simpa using hworker), ← List.filter_append] at htail

/-- Workers that work in different containers can take their turns in every order that keeps the
order of each of them. -/
theorem interleave (hs : Sound n s) {turns turns' : List (Worker × Errand)}
    (hwithin : ∀ turn ∈ turns, turn.2.Within n) (hrun : s.run turns = some s')
    (hapart : ∀ a ∈ turns, ∀ b ∈ turns, Apart s'.answers a b)
    (hsame : ∀ worker, turns'.filter (·.1 = worker) = turns.filter (·.1 = worker)) :
    ∃ f t, s.run turns' = some t ∧ Alike n f s' t := by
  -- By induction on the new order: its first turn is hastened, and the rest is arranged after it.
  induction turns' generalizing s s' turns with
  | nil =>
      have hnone : turns = [] := by
        refine List.eq_nil_iff_forall_not_mem.mpr fun turn hturn => ?_
        exact List.filter_eq_nil_iff.mp (hsame turn.1).symm turn hturn (by simp)
      rw [hnone] at hrun
      exact ⟨_, s', hrun, Alike.refl n s'⟩
  | cons turn rest ih =>
      obtain ⟨front, back, rfl, hothers, hsame⟩ := exists_append_of_filter_eq hsame
      have hmem : ∀ a ∈ front ++ back, a ∈ front ++ turn :: back :=
        ((List.sublist_cons_self turn back).append_left front).subset
      obtain ⟨hfront, hlater⟩ := List.forall_mem_append.mp hwithin
      obtain ⟨hturn, hback⟩ := List.forall_mem_cons.mp hlater
      rw [List.append_cons] at hrun
      obtain ⟨mid, hmid, hlast⟩ := run_append_eq_some_iff.mp hrun
      obtain ⟨f, t, ht, halike⟩ := hs.hasten hfront hturn hothers
        (fun a ha => hapart a (List.mem_append_left _ ha) turn (by simp)) hmid (prefix_of_run hlast)
      obtain ⟨u, hu, halike⟩ := halike.run (hs.run hmid) (hs.run ht) hback hlast
      obtain ⟨next, hnext, hfrontRun⟩ := run_cons_eq_some_iff.mp ht
      have hrest : next.run (front ++ back) = some u :=
        run_append_eq_some_iff.mpr ⟨t, hfrontRun, hu⟩
      obtain ⟨f', v, hv, hdone⟩ := ih (hs.step hnext) (fun a ha => hwithin a (hmem a ha)) hrest
        (fun a ha b hb => halike.apart (hwithin a (hmem a ha)) (hwithin b (hmem b hb))
          (hapart a (hmem a ha) b (hmem b hb))) hsame
      exact ⟨_, v, run_cons_eq_some_iff.mpr ⟨next, hnext, hv⟩, halike.trans hdone⟩

end Sound

/-! ## What workers can rely on -/

/-- From a graph with `n` slots workers have come as far in `t` as in `s`: they were answered alike,
and the graphs are the same up to the numbers of the new slots. -/
structure Corresponds (n : Nat) (f : Equiv.Perm DeclId) (s t : Progress Worker) : Prop where
  /-- The slots that were there before are numbered as before. -/
  fixed : ∀ id : DeclId, id.index < n → f id = id
  /-- Every worker got the same answers. -/
  answers : ∀ worker, t.answers worker = (s.answers worker).map (Answer.renumber f)
  /-- There are as many slots. -/
  size : t.graph.size = s.graph.size
  /-- Every slot holds the same declaration. -/
  get? : ∀ id, t.graph.get? (f id) = (s.graph.get? id).map (Decl.renumber f)
  /-- Every slot has the same owner. -/
  owner? : ∀ id, t.graph.owner? (f id) = (s.graph.owner? id).map f
  /-- The root has the same outline. -/
  outline : ∃ text, s.graph.outline root = .ok text ∧ t.graph.outline root = .ok text

/-- Workers that have come as far in sound graphs have come as far as anybody can tell. -/
theorem Alike.corresponds {f : Equiv.Perm DeclId} (h : Alike n f s t) (hn : 0 < n)
    (hs : Sound n s) (ht : Sound n t) : Corresponds n f s t where
  fixed := h.fixed
  answers := congrFun h.answers
  size := h.permuted.size
  get? := h.permuted.get? hs.coherent ht.coherent hs.indexed ht.indexed
  owner? := h.permuted.owner? hs.coherent ht.coherent
  outline := (h.permuted.renumbering hs.coherent ht.coherent (h.fixed root hn)).outline_root
    (fun _ => rfl) hs.coherent ht.coherent

end Progress

variable [DecidableEq Worker]

/-- **Work in different containers can be interleaved in any order.**  Workers take turns on a built
graph and refer to nothing but what was there before and what they were answered with themselves.
If no container is worked in by two of them, every order that keeps the order of each of them goes
through as well, with the same answers to every errand and the same graph up to the numbers of the
new slots. -/
theorem Built.interleavings_agree {naming : Naming} {record : Record} {g : Graph}
    (hg : Built naming record g) {turns turns' : List (Worker × Errand)} {s : Progress Worker}
    (hwithin : ∀ turn ∈ turns, turn.2.Within g.size) (hrun : (Progress.start g).run turns = some s)
    (hapart : ∀ a ∈ turns, ∀ b ∈ turns, Apart s.answers a b)
    (hsame : ∀ worker, turns'.filter (·.1 = worker) = turns.filter (·.1 = worker)) :
    ∃ f t, (Progress.start g).run turns' = some t ∧ Progress.Corresponds g.size f s t := by
  have hstart : Progress.Sound g.size (Progress.start g : Progress Worker) := {
    coherent := hg.coherent
    indexed := hg.indexed
    size_le := Nat.le_refl _
    known := by simp [Progress.start] }
  obtain ⟨f, t, ht, halike⟩ := hstart.interleave hwithin hrun hapart hsame
  have hroot : 0 < g.size := index_lt_of_key? hg.coherent.key?_root
  exact ⟨f, t, ht, halike.corresponds hroot (hstart.run hrun) (hstart.run ht)⟩

/-- One worker adds a method to a class twice, takes it out once and is issued a name there. The
other one makes the companion of the class, and a package with companions of its own. -/
def mixedTurns : List (Bool × Errand) :=
  [(true, ⟨.given ⟨1⟩, .method ⟨"m"⟩⟩), (false, ⟨.given root, .object ⟨"C"⟩⟩),
    (true, ⟨.given ⟨1⟩, .method ⟨"m"⟩⟩), (false, ⟨.given root, .package ⟨"p"⟩⟩),
    (false, ⟨.answer 1, .klass ⟨"D"⟩⟩), (true, ⟨.given ⟨1⟩, .dropDuplicate (.answer 1)⟩),
    (true, ⟨.given ⟨1⟩, .issueName⟩), (false, ⟨.answer 1, .object ⟨"D"⟩⟩)]

/-- The turns of the one worker, and then those of the other. -/
def sortedTurns : List (Bool × Errand) :=
  mixedTurns.filter (·.1 = false) ++ mixedTurns.filter (·.1 = true)

/-- Both orders go through, though the companion of the class has different numbers. -/
theorem interleavings_agree_of_companions : ∃ record g s f t, Built issuedName record g ∧
    (Progress.start g).run mixedTurns = some s ∧ (Progress.start g).run sortedTurns = some t ∧
    Progress.Corresponds g.size f s t ∧ s.graph.companion? ⟨1⟩ ≠ t.graph.companion? ⟨1⟩ := by
  have hg := built_played [.klass root ⟨"C"⟩] rfl
  have hrun : ((Progress.start (played [.klass root ⟨"C"⟩] rfl).2).run mixedTurns).any fun s =>
      decide (∀ a ∈ mixedTurns, ∀ b ∈ mixedTurns, Apart s.answers a b) := by
    decide +kernel
  obtain ⟨s, hs, hapart⟩ := (Option.any_eq_true _ _).mp hrun
  have hsame : ∀ worker, sortedTurns.filter (·.1 = worker) = mixedTurns.filter (·.1 = worker) := by
    decide +kernel
  obtain ⟨f, t, ht, hcorresponds⟩ :=
    Built.interleavings_agree hg (by decide +kernel) hs (of_decide_eq_true hapart) hsame
  have hmoved : ((Progress.start (played [.klass root ⟨"C"⟩] rfl).2).run mixedTurns).map
        (·.graph.companion? ⟨1⟩) ≠
      ((Progress.start (played [.klass root ⟨"C"⟩] rfl).2).run sortedTurns).map
        (·.graph.companion? ⟨1⟩) := by
    decide +kernel
  rw [hs, ht] at hmoved
  exact ⟨_, _, s, f, t, hg, hs, ht, hcorresponds, fun hsame => hmoved (congrArg some hsame)⟩

end DeclGraph
