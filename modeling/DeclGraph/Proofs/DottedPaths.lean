import Mathlib.Algebra.Ring.Parity
import DeclGraph.Proofs.WrittenPaths

/-!
# Which texts are paths

A path is read from written names with single dots between them, or from the written root.
The reader looks at backticks one by one: one that opens a name has to stand where nothing
was read of the name, and behind a pair of backticks with nothing in it that is the case
again.  So a name between backticks may have further pairs of backticks in front of it, and
these are the only texts beyond the written forms.

Main results:

- Theorem `Path.Scan.Read.step`: what has been read is, after every character, finished
  names and a part of the next one.
- Theorem `Path.parse_eq_ok_iff_dotted`: which texts are read as which path.
- Theorem `Path.dotted_iff`: of these the ones made of written names are those without
  three backticks in a row.
- Theorem `Path.fault_of_parse`: every refusal names a place in the text.
-/

namespace DeclGraph

/-! ## The texts of names -/

/-- A text that is read as the name: a written form of it, or one between backticks with this many
pairs of backticks in front. -/
inductive Name.Padded (name : Name) : Nat → List Char → Prop
  | written {text : String} (h : name.Written text) : Padded name 0 text.toList
  | pairs {n : Nat} (h : name.Unticked) :
      Padded name (n + 1) (List.replicate (2 * (n + 1)) '\x60' ++ name.quoted.toList)

theorem Name.toList_quoted (name : Name) :
    name.quoted.toList = '\x60' :: (name.raw.toList ++ ['\x60']) := by
  simp [quoted]

/-- A name between backticks, with any number of pairs of backticks in front. -/
theorem Name.padded_quoted {name : Name} (h : name.Unticked) (n : Nat) :
    name.Padded n (List.replicate (2 * n) '\x60' ++ '\x60' :: (name.raw.toList ++ ['\x60'])) := by
  rw [← name.toList_quoted]
  cases n with
  | zero => exact .written (.quoted h)
  | succ n => exact .pairs h

namespace Path

variable {segment : Name → List Char → Prop}

/-- Texts of names with single dots between them. -/
inductive Joined (segment : Name → List Char → Prop) : List Char → List Name → Prop
  | single {name : Name} {text : List Char} (h : segment name text) : Joined segment text [name]
  | cons {name : Name} {names : List Name} {text rest : List Char} (h : segment name text)
      (hrest : Joined segment rest names) :
      Joined segment (text ++ '.' :: rest) (name :: names)

/-- Texts of names with a dot after each of them. -/
inductive Ended (segment : Name → List Char → Prop) : List Char → List Name → Prop
  | nil : Ended segment [] []
  | concat {name : Name} {names : List Name} {front text : List Char}
      (hfront : Ended segment front names) (h : segment name text) :
      Ended segment (front ++ text ++ ['.']) (names ++ [name])

/-- The root as it is written, or texts of names with single dots between them. -/
def Dotted (segment : Name → List Char → Prop) (text : String) (path : Path) : Prop :=
  if text = rootLiteral then path = root else Joined segment text.toList path.segments

/-- Names that have a dot after each of them are followed by other names. -/
theorem Ended.joined {front rest : List Char} {names more : List Name}
    (h : Ended segment front names) (hrest : Joined segment rest more) :
    Joined segment (front ++ rest) (names ++ more) := by
  induction h generalizing rest more with
  | nil => exact hrest
  | concat hfront h ih =>
      rw [List.append_assoc, List.append_assoc, List.append_assoc]
      exact ih (.cons h hrest)

theorem Joined.mono {segment' : Name → List Char → Prop}
    (h : ∀ {name text}, segment name text → segment' name text) {text : List Char}
    {names : List Name} (hjoined : Joined segment text names) : Joined segment' text names := by
  induction hjoined with
  | single hname => exact .single (h hname)
  | cons hname _ ih => exact .cons (h hname) ih

/-- What is read as the name. -/
def Readable (name : Name) (text : List Char) : Prop :=
  ∃ n, name.Padded n text

/-! ## What has been read -/

namespace Scan

/-- The text that was read of a name, as far as it has come with its backticks. -/
def Part (current : String) : Quoting → List Char → Prop
  | .bare, text => text = current.toList ∧ ∀ c ∈ current.toList, c ≠ '.' ∧ c ≠ '\x60'
  | .inside, text => '\x60' ∉ current.toList ∧
      ∃ n, text = List.replicate (2 * n) '\x60' ++ '\x60' :: current.toList
  | .closed, text => '\x60' ∉ current.toList ∧
      ∃ n, text = List.replicate (2 * n) '\x60' ++ '\x60' :: (current.toList ++ ['\x60'])

/-- What has been read is the finished names and a part of the next one. -/
def Read (read : List Char) (scan : Scan) : Prop :=
  ∃ front part, read = front ++ part ∧ Ended Readable front scan.segments ∧
    Part scan.current scan.quoting part

theorem Read.start : Read [] {} :=
  ⟨[], [], rfl, .nil, by simp [Part]⟩

variable {input : String} {offset : Nat} {scan next : Scan} {c : Char} {read : List Char}

/-- One more character of a name that is not between backticks, or of one that is. -/
theorem Part.push {current : String} {quoting : Quoting} {text : List Char}
    (h : Part current quoting text) (hquoting : quoting ≠ .closed) (hc : c ≠ '\x60')
    (hdot : quoting = .bare → c ≠ '.') : Part (current.push c) quoting (text ++ [c]) := by
  cases quoting with
  | bare =>
      obtain ⟨rfl, hchars⟩ := h
      refine ⟨by simp, ?_⟩
      rw [String.toList_push, List.forall_mem_append, List.forall_mem_singleton]
      exact ⟨hchars, hdot rfl, hc⟩
  | inside =>
      obtain ⟨hticks, n, rfl⟩ := h
      refine ⟨?_, n, by simp⟩
      rw [String.toList_push, List.mem_append, List.mem_singleton]
      exact not_or.mpr ⟨hticks, Ne.symm hc⟩
  | closed => contradiction

/-- Where nothing was read of a name, or nothing between its backticks, backticks may open. -/
theorem Part.opened {quoting : Quoting} {text : List Char} (h : Part "" quoting text)
    (hquoting : quoting ≠ .inside) : Part "" .inside (text ++ ['\x60']) := by
  cases quoting with
  | bare =>
      obtain ⟨rfl, -⟩ := h
      exact ⟨by simp, 0, by simp⟩
  | inside => contradiction
  | closed =>
      obtain ⟨-, n, rfl⟩ := h
      have hpair : List.replicate (2 * (n + 1)) '\x60' =
          List.replicate (2 * n) '\x60' ++ ['\x60', '\x60'] :=
        List.replicate_append_replicate.symm
      exact ⟨by simp, n + 1, by simp [hpair]⟩

/-- The closing backtick. -/
theorem Part.closed {current : String} {text : List Char} (h : Part current .inside text) :
    Part current .closed (text ++ ['\x60']) := by
  obtain ⟨hticks, n, rfl⟩ := h
  exact ⟨hticks, n, by simp⟩

/-- What was read of a name that is finished is a text of it. -/
theorem Part.readable {current : String} {quoting : Quoting} {text : List Char}
    (h : Part current quoting text) (hquoting : quoting ≠ .inside)
    (hsome : ¬(current.isEmpty ∧ quoting = .bare)) : Readable ⟨current⟩ text := by
  cases quoting with
  | bare =>
      obtain ⟨rfl, hchars⟩ := h
      have hne : current.isEmpty = false := by simpa using hsome
      exact ⟨0, .written (.bare hne hchars)⟩
  | inside => contradiction
  | closed =>
      obtain ⟨hticks, n, rfl⟩ := h
      exact ⟨n, Name.padded_quoted hticks n⟩

/-- What a character can do: go into the name, end or begin its quotation, finish it, or be out of
place. -/
theorem step_cases (input : String) (offset : Nat) (scan : Scan) (c : Char) :
    (scan.quoting ≠ .closed ∧ c ≠ '\x60' ∧ (scan.quoting = .bare → c ≠ '.') ∧
        scan.step input offset c = .ok (scan.push c)) ∨
      (c = '\x60' ∧ scan.quoting = .inside ∧
        scan.step input offset c = .ok { scan with quoting := .closed }) ∨
      (c = '\x60' ∧ scan.quoting ≠ .inside ∧ scan.current = "" ∧
        scan.step input offset c = .ok { scan with quoting := .inside }) ∨
      (c = '.' ∧ scan.quoting ≠ .inside ∧ scan.step input offset c = scan.finish input) ∨
      scan.step input offset c = .error (.unexpectedChar input offset c) := by
  obtain ⟨segments, current, quoting⟩ := scan
  by_cases htick : c = '\x60'
  · subst htick
    cases quoting with
    | inside => exact .inr (.inl ⟨rfl, rfl, rfl⟩)
    | bare | closed =>
        by_cases hempty : current = ""
        · subst hempty
          exact .inr (.inr (.inl ⟨rfl, by simp, rfl, rfl⟩))
        · exact .inr (.inr (.inr (.inr (by simp [step, hempty]))))
  · cases quoting with
    | inside => exact .inl ⟨by simp, htick, by simp, by simp [step, htick]⟩
    | bare =>
        by_cases hdot : c = '.'
        · exact .inr (.inr (.inr (.inl ⟨hdot, by simp, by simp [step, hdot]⟩)))
        · exact .inl ⟨by simp, htick, fun _ => hdot, by simp [step, htick, hdot]⟩
    | closed =>
        by_cases hdot : c = '.'
        · exact .inr (.inr (.inr (.inl ⟨hdot, by simp, by simp [step, hdot]⟩)))
        · exact .inr (.inr (.inr (.inr (by simp [step, htick, hdot]))))

/-- A name that can be finished is finished with the text that was read of it. -/
theorem Read.finish (h : Read read scan) (hquoting : scan.quoting ≠ .inside)
    (hfinish : scan.finish input = .ok next) :
    ∃ front text name, read = front ++ text ∧ Ended Readable front scan.segments ∧
      Readable name text ∧ next = { segments := scan.segments ++ [name] } := by
  obtain ⟨front, part, rfl, hfront, hpart⟩ := h
  unfold Scan.finish at hfinish
  split at hfinish
  · contradiction
  · next hsome =>
      simp only [Bool.and_eq_true, decide_eq_true_eq] at hsome
      exact ⟨front, part, ⟨scan.current⟩, rfl, hfront, hpart.readable hquoting hsome,
        (Except.ok.inj hfinish).symm⟩

/-- Every character that is read leaves finished names and a part of the next one. -/
theorem Read.step (h : Read read scan) (hstep : scan.step input offset c = .ok next) :
    Read (read ++ [c]) next := by
  have ⟨front, part, hread, hfront, hpart⟩ := h
  have hlonger : ∀ {current quoting}, Part current quoting (part ++ [c]) →
      Read (read ++ [c]) ⟨scan.segments, current, quoting⟩ :=
    fun hpart' => ⟨front, part ++ [c], by rw [hread, List.append_assoc], hfront, hpart'⟩
  rcases step_cases input offset scan c with ⟨hquoting, hc, hdot, hresult⟩ |
    ⟨rfl, hquoting, hresult⟩ | ⟨rfl, hquoting, hcurrent, hresult⟩ | ⟨rfl, hquoting, hresult⟩ |
    hresult <;> rw [hresult] at hstep
  · cases hstep
    exact hlonger (hpart.push hquoting hc hdot)
  · cases hstep
    rw [hquoting] at hpart
    exact hlonger hpart.closed
  · cases hstep
    rw [hcurrent] at hpart
    exact hlonger (hcurrent ▸ hpart.opened hquoting)
  · obtain ⟨front', text, name, hread', hfront', hname, rfl⟩ := h.finish hquoting hstep
    rw [hread']
    exact ⟨_, [], by rw [List.append_nil], .concat hfront' hname, by simp [Part]⟩
  · contradiction

/-- Where the text ends, names with dots between them have been read. -/
theorem Read.close {path : Path} (h : Read read scan) (hclose : scan.close input = .ok path) :
    Joined Readable read path.segments := by
  unfold Scan.close at hclose
  split at hclose
  · contradiction
  · next hquoting =>
      cases hfinish : scan.finish input with
      | error e => rw [hfinish] at hclose; contradiction
      | ok done =>
          obtain ⟨front, text, name, rfl, hfront, hname, rfl⟩ := h.finish hquoting hfinish
          rw [hfinish] at hclose
          cases hclose
          exact hfront.joined (.single hname)

/-- What is read to the end is names with dots between them. -/
theorem Read.run {chars : List Char} {path : Path} (h : Read read scan)
    (hrun : Scan.run input offset scan chars = .ok path) :
    Joined Readable (read ++ chars) path.segments := by
  induction chars generalizing read scan offset with
  | nil =>
      rw [List.append_nil]
      exact h.close hrun
  | cons c rest ih =>
      rw [Scan.run] at hrun
      split at hrun
      · contradiction
      · next next hstep =>
          rw [List.append_cons]
          exact ih (h.step hstep) hrun

/-! ## Reading texts of names -/

/-- Pairs of backticks in front of one that opens a name are read over. -/
theorem run_pairs (input : String) (segments : List Name) (n offset : Nat) (rest : List Char) :
    ∃ later, run input offset { segments } (List.replicate (2 * n) '\x60' ++ '\x60' :: rest) =
      run input later { segments } ('\x60' :: rest) := by
  have hfrom : ∀ (n offset : Nat) (quoting : Quoting), quoting ≠ .inside → ∃ later,
      run input offset ⟨segments, "", quoting⟩ (List.replicate (2 * n) '\x60' ++ '\x60' :: rest) =
        run input later { segments } ('\x60' :: rest) := by
    intro n
    induction n with
    | zero =>
        intro offset quoting hquoting
        refine ⟨offset, ?_⟩
        cases quoting with
        | inside => contradiction
        | bare | closed => rfl
    | succ n ih =>
        intro offset quoting hquoting
        obtain ⟨later, hlater⟩ := ih (offset + 1 + 1) .closed nofun
        refine ⟨later, ?_⟩
        rw [← hlater]
        cases quoting with
        | inside => contradiction
        | bare | closed => rfl
  exact hfrom n offset .bare nofun

/-- A text of a name is read as the name, and the scan is then where it can be finished. -/
theorem run_readable (input : String) (segments : List Name) {name : Name} {text : List Char}
    (h : Readable name text) (offset : Nat) (rest : List Char) : ∃ quoting later,
      quoting ≠ .inside ∧
      finish input ⟨segments, name.raw, quoting⟩ = .ok { segments := segments ++ [name] } ∧
      run input offset { segments } (text ++ rest) =
        run input later ⟨segments, name.raw, quoting⟩ rest := by
  obtain ⟨n, hpadded⟩ := h
  cases hpadded with
  | written hwritten => exact run_written input segments hwritten offset rest
  | @pairs n hticks =>
      obtain ⟨middle, hmiddle⟩ := run_pairs input segments (n + 1) offset
        (name.raw.toList ++ ['\x60'] ++ rest)
      obtain ⟨quoting, later, hquoting, hfinish, hlater⟩ :=
        run_written input segments (.quoted hticks) middle rest
      rw [name.toList_quoted, List.cons_append] at hlater
      refine ⟨quoting, later, hquoting, hfinish, ?_⟩
      rw [name.toList_quoted, List.append_assoc, List.cons_append, hmiddle, hlater]

/-- Texts of names with dots between them are read as the names. -/
theorem run_joined_readable (input : String) {text : List Char} {names : List Name}
    (h : Joined Readable text names) (segments : List Name) (offset : Nat) :
    run input offset { segments } text = .ok ⟨segments ++ names⟩ := by
  induction h generalizing segments offset with
  | @single name text hname =>
      obtain ⟨quoting, later, hquoting, hfinish, hrun⟩ :=
        run_readable input segments hname offset []
      rw [List.append_nil] at hrun
      rw [hrun, run, Scan.close, if_neg hquoting, hfinish]
      rfl
  | @cons name names text rest hname _ ih =>
      obtain ⟨quoting, later, hquoting, hfinish, hrun⟩ :=
        run_readable input segments hname offset ('.' :: rest)
      have hdot : ∀ offset, step input offset ⟨segments, name.raw, quoting⟩ '.' =
          finish input ⟨segments, name.raw, quoting⟩ := by
        intro offset
        cases quoting with
        | inside => contradiction
        | bare | closed => rfl
      rw [hrun, run, hdot, hfinish]
      simp only [ih, List.append_assoc, List.singleton_append]

end Scan

/-! ## Paths -/

/-- No name has an empty text. -/
theorem ne_nil_of_readable {name : Name} {text : List Char} (h : Readable name text) :
    text ≠ [] := by
  obtain ⟨n, hpadded⟩ := h
  cases hpadded with
  | pairs => simp [name.toList_quoted]
  | written hwritten =>
      cases hwritten with
      | bare hne hchars =>
          intro hnil
          rw [String.toList_eq_nil_iff.mp hnil] at hne
          contradiction
      | quoted h => simp [name.toList_quoted]

/-- Names with dots between them have no empty text. -/
theorem ne_nil_of_joined {text : List Char} {names : List Name} (h : Joined Readable text names) :
    text ≠ [] := by
  cases h with
  | single hname => exact ne_nil_of_readable hname
  | cons hname hrest => simp

/-- A text is read as a path exactly if it is the written root or texts of the names of the path
with single dots between them. -/
theorem parse_eq_ok_iff_dotted {text : String} {path : Path} :
    parse text = .ok path ↔ Dotted Readable text path := by
  unfold parse Dotted
  split
  · exact ⟨fun h => (Except.ok.inj h).symm, fun h => congrArg _ h.symm⟩
  · by_cases hempty : text.isEmpty
    · rw [if_pos hempty, String.isEmpty_iff.mp hempty]
      exact iff_of_false nofun fun hjoined => ne_nil_of_joined hjoined rfl
    · rw [if_neg hempty]
      constructor
      · intro hrun
        exact Scan.Read.start.run hrun
      · intro hjoined
        exact Scan.run_joined_readable text hjoined [] 0

/-! ## Written names -/

/-- Three backticks in a row. -/
def tripleTick : List Char := ['\x60', '\x60', '\x60']

/-- Three backticks that are on either side of a dot are all on one side of it. -/
theorem tripleTick_infix_append {text rest : List Char} :
    tripleTick <:+: text ++ '.' :: rest ↔ tripleTick <:+: text ∨ tripleTick <:+: rest := by
  constructor
  · rintro ⟨before, after, h⟩
    rw [List.append_assoc, List.append_eq_append_iff] at h
    rcases h with ⟨middle, rfl, h⟩ | ⟨middle, rfl, h⟩
    · rcases middle with _ | ⟨_, _ | ⟨_, _ | ⟨_, middle⟩⟩⟩ <;> simp [tripleTick] at h
      obtain ⟨rfl, rfl, rfl, -⟩ := h
      exact .inl ⟨before, middle, by simp [tripleTick]⟩
    · rcases middle with _ | ⟨_, middle⟩
      · simp [tripleTick] at h
      · obtain ⟨-, rfl⟩ := List.cons.inj h
        exact .inr ⟨middle, after, List.append_assoc _ _ _⟩
  · rintro (h | h)
    · exact h.trans (List.prefix_append _ _).isInfix
    · exact h.trans ((List.suffix_cons _ _).trans (List.suffix_append _ _)).isInfix

/-- A text of a name has three backticks in a row exactly if there are pairs in front. -/
theorem tripleTick_infix_padded {name : Name} {n : Nat} {text : List Char}
    (h : name.Padded n text) : tripleTick <:+: text ↔ n ≠ 0 := by
  cases h with
  | @pairs n _ =>
      refine iff_of_true ?_ (Nat.succ_ne_zero n)
      have hfront : List.replicate (2 * (n + 1)) '\x60' ++ ['\x60'] =
          tripleTick ++ List.replicate (2 * n) '\x60' := by
        rw [← List.replicate_succ']
        rfl
      rw [name.toList_quoted, List.append_cons, hfront, List.append_assoc]
      exact (List.prefix_append _ _).isInfix
  | @written text hwritten =>
      refine iff_of_false (fun hrow => ?_) (fun h => h rfl)
      -- A written name has its two quotes at most.
      have hthree := hrow.sublist.count_le '\x60'
      have htwo : text.toList.count '\x60' ≤ 2 := by
        cases hwritten with
        | bare hne hchars =>
            rw [List.count_eq_zero.mpr fun hmem => (hchars _ hmem).2 rfl]
            exact Nat.zero_le 2
        | quoted h => simp [name.toList_quoted, List.count_eq_zero.mpr h]
      exact absurd (Nat.le_trans hthree htwo) (by decide)

/-- Texts of names with dots between them are written names exactly if there are no three backticks
in a row. -/
theorem joined_written_iff {text : List Char} {names : List Name} :
    Joined (fun name => name.Padded 0) text names ↔
      Joined Readable text names ∧ ¬ tripleTick <:+: text := by
  constructor
  · intro h
    refine ⟨h.mono fun hname => ⟨0, hname⟩, ?_⟩
    induction h with
    | single hname => exact fun hrow => (tripleTick_infix_padded hname).mp hrow rfl
    | cons hname _ ih =>
        rw [tripleTick_infix_append, not_or]
        exact ⟨fun hrow => (tripleTick_infix_padded hname).mp hrow rfl, ih⟩
  · rintro ⟨h, hnone⟩
    induction h with
    | single hname =>
        obtain ⟨n, hpadded⟩ := hname
        rw [tripleTick_infix_padded hpadded, not_not] at hnone
        exact .single (hnone ▸ hpadded)
    | cons hname _ ih =>
        obtain ⟨n, hpadded⟩ := hname
        rw [tripleTick_infix_append, not_or, tripleTick_infix_padded hpadded, not_not] at hnone
        exact .cons (hnone.1 ▸ hpadded) (ih hnone.2)

/-- **Which texts are paths.**  A text is read as a path exactly if it is the written root or texts
of the names of the path with single dots between them, where a name between backticks may have
further pairs of backticks in front.  Texts without such pairs are those that are read as a path and
have no three backticks in a row. -/
theorem dotted_iff (text : String) (path : Path) :
    (parse text = .ok path ↔ Dotted Readable text path) ∧
      (Dotted (fun name => name.Padded 0) text path ↔
        parse text = .ok path ∧ ¬ tripleTick <:+: text.toList) := by
  refine ⟨parse_eq_ok_iff_dotted, ?_⟩
  rw [parse_eq_ok_iff_dotted, Dotted, Dotted]
  split
  · next hroot =>
      rw [hroot]
      refine (and_iff_left fun hrow => ?_).symm
      exact absurd (hrow.subset List.mem_cons_self) (by decide)
  · exact joined_written_iff

/-- A pair of backticks with nothing in it is read over, though no written name begins with one and
goes on. -/
theorem dotted_pair_in_front : parse "```x`" = .ok ⟨[⟨"x"⟩]⟩ ∧
    ∀ path, ¬ Dotted (fun name => name.Padded 0) "```x`" path := by
  have hparse : parse "```x`" = .ok ⟨[⟨"x"⟩]⟩ := rfl
  refine ⟨hparse, fun path h => ?_⟩
  unfold Dotted at h
  rw [if_neg (by decide)] at h
  exact (joined_written_iff.mp h).2 ⟨[], ['x', '\x60'], rfl⟩

/-! ## Refusals -/

/-- The backticks of a name come in pairs. -/
theorem even_count_of_readable {name : Name} {text : List Char} (h : Readable name text) :
    Even (text.count '\x60') := by
  obtain ⟨n, hpadded⟩ := h
  cases hpadded with
  | pairs h =>
      rw [name.toList_quoted, List.count_append, List.count_replicate_self]
      simp [List.count_eq_zero.mpr h, Nat.even_add_one]
  | written hwritten =>
      cases hwritten with
      | bare hne hchars => simp [List.count_eq_zero.mpr fun hmem => (hchars _ hmem).2 rfl]
      | quoted h => simp [name.toList_quoted, List.count_eq_zero.mpr h]

theorem even_count_of_ended {front : List Char} {names : List Name}
    (h : Ended Readable front names) : Even (front.count '\x60') := by
  induction h with
  | nil => simp
  | concat _ hname ih => simp [ih.add (even_count_of_readable hname)]

theorem even_count_of_joined {text : List Char} {names : List Name}
    (h : Joined Readable text names) : Even (text.count '\x60') := by
  induction h with
  | single hname => exact even_count_of_readable hname
  | cons hname _ ih => simp [(even_count_of_readable hname).add ih]

/-- The backticks of a path come in pairs. -/
theorem even_count_of_parse {text : String} {path : Path} (h : parse text = .ok path) :
    Even (text.toList.count '\x60') := by
  rw [parse_eq_ok_iff_dotted, Dotted] at h
  split at h
  · next hroot =>
      rw [hroot]
      decide
  · exact even_count_of_joined h

/-- Where and why a text is refused as a path. -/
inductive Fault (text : String) : ParseError → Prop
  /-- Nothing stands between two dots, or before the first, or after the last; it is told how many
  names end before that. -/
  | emptySegment {front rest : List Char} {names : List Name}
      (htext : text.toList = front ++ rest) (hfront : Ended Readable front names)
      (hrest : rest = [] ∨ rest.head? = some '.') : Fault text (.emptySegment text names.length)
  /-- A character is out of place; it is told at which byte it begins. -/
  | unexpectedChar {before after : String} {c : Char}
      (htext : text = before ++ String.singleton c ++ after) :
      Fault text (.unexpectedChar text before.utf8ByteSize c)
  /-- There is no text, or backticks are not closed. -/
  | unexpectedEnd (h : text = "" ∨ Odd (text.toList.count '\x60')) :
      Fault text (.unexpectedEnd text)

namespace Scan

variable {input : String} {scan next : Scan} {c : Char} {read rest : List Char} {e : ParseError}

/-- Where a name cannot be finished nothing was read of it. -/
theorem Read.fault_of_finish (h : Read read scan) (hinput : input.toList = read ++ rest)
    (hrest : rest = [] ∨ rest.head? = some '.') (hfinish : scan.finish input = .error e) :
    Fault input e := by
  obtain ⟨front, part, rfl, hfront, hpart⟩ := h
  obtain ⟨segments, current, quoting⟩ := scan
  unfold Scan.finish at hfinish
  split at hfinish
  · next hnone =>
      simp only [Bool.and_eq_true, decide_eq_true_eq, String.isEmpty_iff] at hnone
      obtain ⟨rfl, rfl⟩ := hnone
      obtain ⟨rfl, -⟩ := hpart
      rw [String.toList_empty, List.append_nil] at hinput
      cases hfinish
      exact .emptySegment hinput hfront hrest
  · contradiction

/-- A character that is refused has a place in the text. -/
theorem Read.fault_of_step (h : Read read scan) (hinput : input.toList = read ++ c :: rest)
    (hstep : scan.step input (String.ofList read).utf8ByteSize c = .error e) : Fault input e := by
  rcases step_cases input (String.ofList read).utf8ByteSize scan c with ⟨-, -, -, hresult⟩ |
    ⟨-, -, hresult⟩ | ⟨-, -, -, hresult⟩ | ⟨rfl, hquoting, hresult⟩ | hresult <;>
    rw [hresult] at hstep
  · contradiction
  · contradiction
  · contradiction
  · exact h.fault_of_finish hinput (.inr rfl) hstep
  · cases hstep
    have htext : input = String.ofList read ++ String.singleton c ++ String.ofList rest :=
      String.toList_inj.mp (by simp [hinput])
    exact .unexpectedChar htext

/-- Where the text ends too early, something is open or missing. -/
theorem Read.fault_of_close (h : Read input.toList scan) (hclose : scan.close input = .error e) :
    Fault input e := by
  unfold Scan.close at hclose
  split at hclose
  · next hinside =>
      obtain ⟨front, part, hread, hfront, hpart⟩ := h
      rw [hinside] at hpart
      obtain ⟨hticks, n, rfl⟩ := hpart
      cases hclose
      refine .unexpectedEnd (.inr ?_)
      rw [hread, List.count_append, List.count_append, List.count_replicate_self,
        List.count_cons_self, List.count_eq_zero.mpr hticks, ← Nat.add_assoc]
      exact ((even_count_of_ended hfront).add (even_two_mul n)).add_one
  · next hquoting =>
      cases hfinish : scan.finish input with
      | error e' =>
          rw [hfinish] at hclose
          cases hclose
          exact h.fault_of_finish (List.append_nil _).symm (.inl rfl) hfinish
      | ok done => rw [hfinish] at hclose; contradiction

theorem Read.fault_of_run {chars : List Char} (h : Read read scan)
    (hinput : input.toList = read ++ chars)
    (hrun : Scan.run input (String.ofList read).utf8ByteSize scan chars = .error e) :
    Fault input e := by
  induction chars generalizing read scan with
  | nil =>
      rw [List.append_nil] at hinput
      rw [← hinput] at h
      exact h.fault_of_close hrun
  | cons c rest ih =>
      rw [Scan.run] at hrun
      split at hrun
      · next hstep =>
          cases hrun
          exact h.fault_of_step hinput hstep
      · next next hstep =>
          refine ih (h.step hstep) (by rw [hinput, List.append_cons]) ?_
          rw [← hrun]
          simp

end Scan

/-- Every refusal names a place in the text. -/
theorem fault_of_parse {text : String} {e : ParseError} (h : parse text = .error e) :
    Fault text e := by
  unfold parse at h
  split at h
  · contradiction
  · split at h
    · next hempty =>
        cases h
        exact .unexpectedEnd (.inl (String.isEmpty_iff.mp hempty))
    · exact Scan.Read.start.fault_of_run rfl h

end Path
end DeclGraph
