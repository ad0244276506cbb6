import Mathlib.Data.List.Induction
import DeclGraph.Proofs.DottedPaths
import DeclGraph.Proofs.WrittenTypes

/-!
# Which texts are types

A type is written as a path, or as a path and its arguments between brackets.  Blanks may
stand before every path, and before a comma and a closing bracket.  The text of a path goes
on to the first bracket, comma or blank outside backticks, so a text is put together from
its parts in one way only, and the reader finds them in one pass.

Main results:

- Theorem `TypeExpr.Scan.Staged.step` and Theorem `TypeExpr.Scan.Staged.close`: what has been
  read is, after every character, arguments of the open brackets and a part of the next type.
- Theorem `TypeExpr.Scan.run_derives`: a text of the grammar is read as its type, whatever
  follows.
- Theorem `TypeExpr.parse_eq_ok_iff_derives`: the texts that are read as a type are those of the
  grammar.
- Theorem `TypeExpr.exists_behind_blank`: where no blank stands in such a text.
-/

namespace DeclGraph
namespace TypeExpr

/-! ## The grammar -/

/-- How many bytes the characters take. -/
def width (chars : List Char) : Nat :=
  (String.ofList chars).utf8ByteSize

@[simp]
theorem width_nil : width [] = 0 :=
  rfl

@[simp]
theorem width_append (chars rest : List Char) :
    width (chars ++ rest) = width chars + width rest := by
  simp [width]

@[simp]
theorem width_cons (c : Char) (chars : List Char) :
    width (c :: chars) = c.utf8Size + width chars := by
  simp [width, String.ofList_cons]

/-- Blanks only. -/
def Blanks (text : List Char) : Prop :=
  ∀ c ∈ text, Unicode.isBlank c = true

/-- No bracket, comma or blank stands outside backticks, where the backticks before it are even in
number. -/
def Unended (text : List Char) : Prop :=
  ∀ before c after, text = before ++ c :: after → Even (before.count '\x60') →
    Scan.endsPath c = false

/-- A text of a path within the text of a type. -/
structure PathText (text : List Char) (head : Path) : Prop where
  ne_nil : text ≠ []
  unended : Unended text
  parse : Path.parse (String.ofList text) = .ok head

mutual

/-- The texts of a type: a path with blanks before it, and its arguments between brackets. Of a type
without arguments the brackets may be left out. -/
inductive Derives : List Char → TypeExpr → Prop
  | bare {blanks path : List Char} {head : Path} (hblanks : Blanks blanks)
      (hpath : PathText path head) : Derives (blanks ++ path) ⟨head, []⟩
  | empty {blanks path inner : List Char} {head : Path} (hblanks : Blanks blanks)
      (hpath : PathText path head) (hinner : Blanks inner) :
      Derives (blanks ++ path ++ '[' :: inner ++ [']']) ⟨head, []⟩
  | applied {blanks path inner : List Char} {head : Path} {args : List TypeExpr}
      (hblanks : Blanks blanks) (hpath : PathText path head) (hargs : DerivesArgs inner args) :
      Derives (blanks ++ path ++ '[' :: inner ++ [']']) ⟨head, args⟩

/-- The texts of arguments: of one type or more, with blanks after each and commas between them. -/
inductive DerivesArgs : List Char → List TypeExpr → Prop
  | last {text blanks : List Char} {type : TypeExpr} (htype : Derives text type)
      (hblanks : Blanks blanks) : DerivesArgs (text ++ blanks) [type]
  | cons {text blanks rest : List Char} {type : TypeExpr} {types : List TypeExpr}
      (htype : Derives text type) (hblanks : Blanks blanks) (hrest : DerivesArgs rest types) :
      DerivesArgs (text ++ blanks ++ ',' :: rest) (type :: types)

end

theorem blanks_nil : Blanks [] :=
  fun _ h => absurd h List.not_mem_nil

theorem Blanks.concat {blanks : List Char} {c : Char} (h : Blanks blanks)
    (hc : Unicode.isBlank c = true) : Blanks (blanks ++ [c]) :=
  List.forall_mem_append.mpr ⟨h, List.forall_mem_singleton.mpr hc⟩

/-- One more character ends a path unless it is between backticks. -/
theorem unended_concat {text : List Char} {c : Char} : Unended (text ++ [c]) ↔
    Unended text ∧ (Even (text.count '\x60') → Scan.endsPath c = false) := by
  constructor
  · intro h
    refine ⟨fun before d after htext heven => ?_, fun heven => h text c [] rfl heven⟩
    exact h before d (after ++ [c]) (by simp [htext]) heven
  · rintro ⟨htext, hlast⟩ before d after h heven
    rcases List.eq_nil_or_concat after with rfl | ⟨after', last, rfl⟩
    · obtain ⟨rfl, rfl⟩ := List.append_singleton_inj.mp h
      exact hlast heven
    · have hfront : text ++ [c] = before ++ d :: after' ++ [last] := by simpa using h
      exact htext before d after' (List.append_singleton_inj.mp hfront).1 heven

namespace Scan

/-! ## Where a path ends -/

/-- The characters of a path are gone through exactly if nothing in them ends it, and then a
backtick is open if the number of backticks is odd. -/
theorem quotedAfter_eq_some_iff {text : List Char} {quoted : Bool} :
    quotedAfter false text = some quoted ↔
      Unended text ∧ (quoted = true ↔ Odd (text.count '\x60')) := by
  induction text using List.reverseRecOn generalizing quoted with
  | nil => cases quoted <;> simp [quotedAfter, Unended]
  | append_singleton text c ih =>
      have hlast : ∀ before, quotedAfter before [c] = some quoted ↔
          (before = false → endsPath c = false) ∧
            (if c = '\x60' then !before else before) = quoted := by
        intro before
        by_cases hc : c = '\x60'
        · subst hc
          rw [quotedAfter, if_pos rfl, if_pos rfl, quotedAfter, Option.some.injEq]
          exact (and_iff_right fun _ => rfl).symm
        · rw [quotedAfter, if_neg hc, if_neg hc]
          cases before <;> cases endsPath c <;> simp [quotedAfter]
      have hparity : ∀ {before : Bool}, (before = true ↔ Odd (text.count '\x60')) →
          ((if c = '\x60' then !before else before) = true ↔
            Odd ((text ++ [c]).count '\x60')) := by
        intro before hbefore
        by_cases hc : c = '\x60'
        · subst hc
          simp [Nat.odd_add_one, ← hbefore]
        · simp [hc, hbefore]
      rw [quotedAfter_append, Option.bind_eq_some_iff, unended_concat]
      simp only [ih, hlast]
      constructor
      · rintro ⟨before, ⟨htext, hbefore⟩, hends, rfl⟩
        refine ⟨⟨htext, fun heven => hends ?_⟩, hparity hbefore⟩
        rwa [← Bool.not_eq_true, hbefore, Nat.not_odd_iff_even]
      · rintro ⟨⟨htext, hends⟩, hquoted⟩
        have hbefore : decide (Odd (text.count '\x60')) = true ↔ Odd (text.count '\x60') :=
          decide_eq_true_iff
        refine ⟨_, ⟨htext, hbefore⟩, fun hfalse => hends ?_, ?_⟩
        · rwa [← Nat.not_odd_iff_even, ← decide_eq_false_iff_not]
        · rw [Bool.eq_iff_iff, hparity hbefore, hquoted]

end Scan

/-- A path leaves no backtick open. -/
theorem PathText.quotedAfter {text : List Char} {head : Path} (h : PathText text head) :
    Scan.quotedAfter false text = some false := by
  have heven := Path.even_count_of_parse h.parse
  rw [String.toList_ofList] at heven
  exact Scan.quotedAfter_eq_some_iff.mpr ⟨h.unended, by simpa using heven⟩

namespace Scan

/-! ## What has been read -/

/-- Arguments that are complete, each with a comma behind it. -/
inductive ArgsBefore : List Char → List TypeExpr → Prop
  | nil : ArgsBefore [] []
  | concat {front text blanks : List Char} {args : List TypeExpr} {type : TypeExpr}
      (hfront : ArgsBefore front args) (htype : Derives text type) (hblanks : Blanks blanks) :
      ArgsBefore (front ++ (text ++ blanks ++ [','])) (args ++ [type])

/-- Arguments with commas behind them are followed by other arguments. -/
theorem ArgsBefore.append {front rest : List Char} {args types : List TypeExpr}
    (h : ArgsBefore front args) (hrest : DerivesArgs rest types) :
    DerivesArgs (front ++ rest) (args ++ types) := by
  induction h generalizing rest types with
  | nil => exact hrest
  | concat _ htype hblanks ih =>
      have hlater := ih (.cons htype hblanks hrest)
      simpa [List.append_assoc] using hlater

/-- What has been read where a type can begin in the open brackets. -/
inductive Framed : List Frame → List Char → Prop
  | nil : Framed [] []
  | cons {outer : List Frame} {front blanks path inner : List Char} {head : Path}
      {args : List TypeExpr} (houter : Framed outer front) (hblanks : Blanks blanks)
      (hpath : PathText path head) (hargs : ArgsBefore inner args) :
      Framed (⟨head, width (front ++ (blanks ++ path)), args⟩ :: outer)
        (front ++ (blanks ++ path) ++ '[' :: inner)

/-- What has been read of a type, and of what is around it. -/
inductive Staged : Scan → List Char → Prop
  | start {frames : List Frame} {front blanks : List Char} (hframes : Framed frames front)
      (hblanks : Blanks blanks) : Staged ⟨frames, .start⟩ (front ++ blanks)
  | opened {frames : List Frame} {front blanks path inner : List Char} {head : Path}
      (hframes : Framed frames front) (hblanks : Blanks blanks) (hpath : PathText path head)
      (hinner : Blanks inner) :
      Staged ⟨frames, .opened head (width (front ++ (blanks ++ path)))⟩
        (front ++ (blanks ++ path) ++ '[' :: inner)
  | path {frames : List Frame} {front blanks : List Char} {text : String} {quoted : Bool}
      (hframes : Framed frames front) (hblanks : Blanks blanks) (hne : text.toList ≠ [])
      (hquoted : quotedAfter false text.toList = some quoted) :
      Staged ⟨frames, .path text quoted⟩ (front ++ (blanks ++ text.toList))
  | complete {frames : List Frame} {front text blanks : List Char} {type : TypeExpr}
      (hframes : Framed frames front) (htype : Derives text type) (hblanks : Blanks blanks)
      (htop : frames = [] → blanks = []) :
      Staged ⟨frames, .complete type⟩ (front ++ (text ++ blanks))

theorem Staged.empty : Staged {} [] :=
  .start .nil blanks_nil

variable (input : String) {scan : Scan} {read : List Char}

/-- Why and where a character is refused, or the end of the text. -/
inductive Refused (input : String) (read : List Char) : List Char → ParseError → Prop
  /-- A character is out of place. -/
  | character {c : Char} {rest : List Char} :
      Refused input read (c :: rest)
        (.unexpectedChar input (width read) c)
  /-- The text of a path is no path. -/
  | path {frames : List Frame} {front blanks rest : List Char} {text : String} {quoted : Bool}
      {e : ParseError} (hread : read = front ++ (blanks ++ text.toList))
      (hframes : Framed frames front) (hblanks : Blanks blanks) (hne : text.toList ≠ [])
      (hquoted : quotedAfter false text.toList = some quoted)
      (hrest : ∀ c ∈ rest.head?, quoted = false ∧ endsPath c = true)
      (hparse : Path.parse text = .error e) : Refused input read rest e
  /-- A bracket is open where the text ends behind a type. -/
  | bracket {frame : Frame} {outer : List Frame} {front text blanks : List Char} {type : TypeExpr}
      (hread : read = front ++ (text ++ blanks)) (hframes : Framed (frame :: outer) front)
      (htype : Derives text type) (hblanks : Blanks blanks) :
      Refused input read [] (.unclosedBracket input frame.openAt)
  /-- The text ends where a type is missing. -/
  | missing : Refused input read [] (.unexpectedEnd input)

/-- What becomes of a character: it is read, or it is refused. -/
inductive Stepped (input : String) (read : List Char) (c : Char) (rest : List Char) :
    Except ParseError Scan → Prop
  | on {next : Scan} (h : Staged next (read ++ [c])) : Stepped input read c rest (.ok next)
  | refused {e : ParseError} (h : Refused input read (c :: rest) e) :
      Stepped input read c rest (.error e)

/-- What becomes of a text: it is one of a type, or it is refused somewhere. -/
inductive Judged (input : String) (text : List Char) : Except ParseError TypeExpr → Prop
  | derives {type : TypeExpr} (h : Derives text type) : Judged input text (.ok type)
  | refused {e : ParseError} {done rest : List Char} (hsplit : text = done ++ rest)
      (h : Refused input done rest e) : Judged input text (.error e)

/-- A character behind a complete type. -/
theorem stepped_afterType (rest : List Char) {frames : List Frame} {front text blanks : List Char}
    {type : TypeExpr} (hframes : Framed frames front) (htype : Derives text type)
    (hblanks : Blanks blanks) (c : Char) : Stepped input (front ++ (text ++ blanks)) c rest
      (afterType input (width (front ++ (text ++ blanks))) frames type c) := by
  cases hframes with
  | nil => exact .refused .character
  | @cons outer front' blanks' path inner head args houter hblanks' hpath hargs =>
      have hframes := houter.cons hblanks' hpath hargs
      simp only [afterType]
      by_cases hblank : Unicode.isBlank c = true
      · rw [if_pos hblank]
        have hmore := Staged.complete hframes htype (hblanks.concat hblank) (by simp)
        exact .on (by simpa [List.append_assoc] using hmore)
      · rw [if_neg hblank]
        by_cases hcomma : c = ','
        · subst hcomma
          rw [if_pos rfl]
          have hmore := houter.cons hblanks' hpath (hargs.concat htype hblanks)
          have hstart := Staged.start hmore blanks_nil
          exact .on (by simpa [List.append_assoc] using hstart)
        · rw [if_neg hcomma]
          by_cases hclose : c = ']'
          · subst hclose
            rw [if_pos rfl]
            have hwhole := Derives.applied hblanks' hpath (hargs.append (.last htype hblanks))
            have hdone := Staged.complete houter hwhole blanks_nil fun _ => rfl
            exact .on (by simpa [List.append_assoc] using hdone)
          · rw [if_neg hclose]
            exact .refused .character

/-- A character where a type can begin, behind the blanks. -/
theorem stepped_beginPath (rest : List Char) {frames : List Frame} {front blanks : List Char}
    (hframes : Framed frames front) (hblanks : Blanks blanks) (c : Char) :
    Stepped input (front ++ blanks) c rest
      (beginPath input (width (front ++ blanks)) frames c) := by
  unfold beginPath
  by_cases hends : endsPath c = true
  · rw [if_pos hends]
    exact .refused .character
  · rw [if_neg hends]
    have hquoted : quotedAfter false (String.singleton c).toList = some (decide (c = '\x60')) := by
      by_cases htick : c = '\x60' <;> simp [quotedAfter, htick, hends]
    have hpath := Staged.path hframes hblanks (by simp) hquoted
    exact .on (by simpa [List.append_assoc] using hpath)

/-- The text that was collected of a path, if it is one. -/
theorem pathText_of_parse {text : String} {head : Path} {quoted : Bool} (hne : text.toList ≠ [])
    (hquoted : quotedAfter false text.toList = some quoted) (hparse : Path.parse text = .ok head) :
    PathText text.toList head :=
  ⟨hne, (quotedAfter_eq_some_iff.mp hquoted).1, by rwa [String.ofList_toList]⟩

/-- A character behind the text of a path goes into it, or the path ends. -/
theorem stepped_path (rest : List Char) {frames : List Frame} {front blanks : List Char}
    {text : String} {quoted : Bool} (hframes : Framed frames front) (hblanks : Blanks blanks)
    (hne : text.toList ≠ []) (hquoted : quotedAfter false text.toList = some quoted) (c : Char) :
    Stepped input (front ++ (blanks ++ text.toList)) c rest (Scan.step input
      (width (front ++ (blanks ++ text.toList))) ⟨frames, .path text quoted⟩ c) := by
  have hmore : ∀ after, quotedAfter quoted [c] = some after →
      Staged ⟨frames, .path (text.push c) after⟩ (front ++ (blanks ++ text.toList) ++ [c]) := by
    intro after hafter
    have hpush : quotedAfter false (text.push c).toList = some after := by
      rw [String.toList_push, quotedAfter_append, hquoted, Option.bind_some, hafter]
    simpa [List.append_assoc] using Staged.path hframes hblanks (by simp) hpush
  by_cases htick : c = '\x60'
  · simp only [Scan.step, if_pos htick]
    exact .on (hmore _ (by simp [quotedAfter, htick]))
  · by_cases hstays : (quoted || !endsPath c) = true
    · simp only [Scan.step, if_neg htick, if_pos hstays]
      exact .on (hmore _ (by simp only [quotedAfter, if_neg htick, if_pos hstays]))
    · obtain ⟨rfl, hends⟩ : quoted = false ∧ endsPath c = true := by simpa using hstays
      simp only [Scan.step, if_neg htick, if_neg hstays]
      cases hparse : Path.parse text with
      | error e =>
          exact .refused (.path rfl hframes hblanks hne hquoted (by simp [hends]) hparse)
      | ok head =>
          have hpath := pathText_of_parse hne hquoted hparse
          by_cases hopen : c = '['
          · subst hopen
            exact .on (.opened hframes hblanks hpath blanks_nil)
          · have hafter := stepped_afterType input rest hframes (.bare hblanks hpath) blanks_nil c
            simpa [hopen] using hafter

/-- Every character is read, and is then a part of the next type or of what is around it, or it is
refused. -/
theorem Staged.step (h : Staged scan read) (c : Char) (rest : List Char) :
    Stepped input read c rest (scan.step input (width read) c) := by
  cases h with
  | @start frames front blanks hframes hblanks =>
      by_cases hblank : Unicode.isBlank c = true
      · simp only [Scan.step, if_pos hblank]
        have hmore := Staged.start hframes (hblanks.concat hblank)
        exact .on (by simpa [List.append_assoc] using hmore)
      · simp only [Scan.step, if_neg hblank]
        exact stepped_beginPath input rest hframes hblanks c
  | @opened frames front blanks path inner head hframes hblanks hpath hinner =>
      by_cases hblank : Unicode.isBlank c = true
      · simp only [Scan.step, if_pos hblank]
        have hmore := Staged.opened hframes hblanks hpath (hinner.concat hblank)
        exact .on (by simpa [List.append_assoc] using hmore)
      · simp only [Scan.step, if_neg hblank]
        by_cases hclose : c = ']'
        · subst hclose
          have htype := Derives.empty hblanks hpath hinner
          have hdone := Staged.complete hframes htype blanks_nil fun _ => rfl
          exact .on (by simpa [List.append_assoc] using hdone)
        · rw [if_neg hclose]
          have hbegin := stepped_beginPath input rest (hframes.cons hblanks hpath .nil) hinner c
          simpa [List.append_assoc] using hbegin
  | path hframes hblanks hne hquoted =>
      exact stepped_path input rest hframes hblanks hne hquoted c
  | complete hframes htype hblanks htop =>
      exact stepped_afterType input rest hframes htype hblanks c

/-- Where the text ends behind a type, that is the whole type or a bracket is open. -/
theorem judged_closeType {frames : List Frame} {front text blanks : List Char} {type : TypeExpr}
    (hframes : Framed frames front) (htype : Derives text type) (hblanks : Blanks blanks)
    (htop : frames = [] → blanks = []) :
    Judged input (front ++ (text ++ blanks)) (closeType input frames type) := by
  cases frames with
  | nil =>
      cases hframes
      rw [htop rfl, List.append_nil, List.nil_append]
      exact .derives htype
  | cons frame outer =>
      exact .refused (List.append_nil _).symm (.bracket rfl hframes htype hblanks)

/-- Where the text ends a type has been read, or it is refused. -/
theorem Staged.close (h : Staged scan read) : Judged input read (scan.close input) := by
  cases h with
  | start hframes hblanks => exact .refused (List.append_nil _).symm .missing
  | opened hframes hblanks hpath hinner => exact .refused (List.append_nil _).symm .missing
  | @path frames front blanks text quoted hframes hblanks hne hquoted =>
      simp only [Scan.close]
      cases hparse : Path.parse text with
      | error e =>
          exact .refused (List.append_nil _).symm
            (.path rfl hframes hblanks hne hquoted (by simp) hparse)
      | ok head =>
          have hpath := pathText_of_parse hne hquoted hparse
          have hbare := Derives.bare hblanks hpath
          simpa using judged_closeType input hframes hbare blanks_nil fun _ => rfl
  | complete hframes htype hblanks htop => exact judged_closeType input hframes htype hblanks htop

/-- A text is read to its end and is then one of a type, or it is refused somewhere. -/
theorem Staged.run (h : Staged scan read) (chars : List Char) :
    Judged input (read ++ chars) (Scan.run input (width read) scan chars) := by
  induction chars generalizing scan read with
  | nil =>
      rw [List.append_nil]
      exact h.close input
  | cons c chars ih =>
      have hstep := h.step input c chars
      rw [Scan.run]
      generalize scan.step input (width read) c = result at hstep ⊢
      cases hstep with
      | on hnext =>
          have hoffset : width read + c.utf8Size = width (read ++ [c]) := by simp
          rw [List.append_cons]
          simp only [hoffset]
          exact ih hnext
      | refused hrefused => exact .refused rfl hrefused

/-- What is read to its end has been read up to any place before. -/
theorem Staged.run_prefix (h : Staged scan read) {chars rest : List Char} {type : TypeExpr}
    (hrun : Scan.run input (width read) scan (chars ++ rest) = .ok type) : ∃ next,
      Staged next (read ++ chars) ∧
        Scan.run input (width (read ++ chars)) next rest = .ok type := by
  induction chars generalizing scan read with
  | nil => exact ⟨scan, by rwa [List.append_nil], by rwa [List.append_nil]⟩
  | cons c chars ih =>
      have hstep := h.step input c (chars ++ rest)
      rw [List.cons_append, Scan.run] at hrun
      generalize scan.step input (width read) c = result at hstep hrun
      cases hstep with
      | on hnext =>
          have hoffset : width read + c.utf8Size = width (read ++ [c]) := by simp
          simp only [hoffset] at hrun
          rw [List.append_cons]
          exact ih hnext hrun
      | refused hrefused => contradiction

/-! ## Reading the texts of types -/

/-- What changes nothing is read over. -/
theorem run_over (scan : Scan) {chars : List Char}
    (h : ∀ c ∈ chars, ∀ offset, scan.step input offset c = .ok scan) (offset : Nat)
    (rest : List Char) : Scan.run input offset scan (chars ++ rest) =
      Scan.run input (offset + width chars) scan rest := by
  induction chars generalizing offset with
  | nil => simp
  | cons c chars ih =>
      obtain ⟨hc, hchars⟩ := List.forall_mem_cons.mp h
      have hoffset : offset + c.utf8Size + width chars = offset + width (c :: chars) := by
        rw [width_cons, Nat.add_assoc]
      rw [List.cons_append, Scan.run, hc]
      simp only [ih hchars, hoffset]

/-- Blanks in front of a path are read over. -/
theorem run_blanks {blanks : List Char} (h : Blanks blanks) (frames : List Frame) (offset : Nat)
    (rest : List Char) : Scan.run input offset ⟨frames, .start⟩ (blanks ++ rest) =
      Scan.run input (offset + width blanks) ⟨frames, .start⟩ rest :=
  run_over input _ (fun c hc _ => by simp only [Scan.step, if_pos (h c hc)]) offset rest

/-- Blanks behind an open bracket are read over. -/
theorem run_blanks_opened {blanks : List Char} (h : Blanks blanks) (frames : List Frame)
    (head : Path) (openAt offset : Nat) (rest : List Char) :
    Scan.run input offset ⟨frames, .opened head openAt⟩ (blanks ++ rest) =
      Scan.run input (offset + width blanks) ⟨frames, .opened head openAt⟩ rest :=
  run_over input _ (fun c hc _ => by simp only [Scan.step, if_pos (h c hc)]) offset rest

/-- Blanks behind an argument are read over. -/
theorem run_blanks_complete {blanks : List Char} (h : Blanks blanks) (frame : Frame)
    (outer : List Frame) (type : TypeExpr) (offset : Nat) (rest : List Char) :
    Scan.run input offset ⟨frame :: outer, .complete type⟩ (blanks ++ rest) =
      Scan.run input (offset + width blanks) ⟨frame :: outer, .complete type⟩ rest :=
  run_over input _ (fun c hc _ => by simp only [Scan.step, afterType, if_pos (h c hc)]) offset rest

end Scan

/-- Behind blanks there is a character that does not end a path. -/
def Begins (text : List Char) : Prop :=
  ∃ blanks c rest, text = blanks ++ c :: rest ∧ Blanks blanks ∧ Scan.endsPath c = false

theorem Begins.append {text : List Char} (h : Begins text) (more : List Char) :
    Begins (text ++ more) := by
  obtain ⟨blanks, c, rest, rfl, hblanks, hc⟩ := h
  exact ⟨blanks, c, rest ++ more, by simp, hblanks, hc⟩

/-- The text of a path begins with a character that does not end it. -/
theorem PathText.exists_begin {text : List Char} {head : Path} (h : PathText text head) :
    ∃ c rest, text = c :: rest ∧ Scan.endsPath c = false := by
  obtain ⟨c, rest, rfl⟩ := List.exists_cons_of_ne_nil h.ne_nil
  exact ⟨c, rest, rfl, h.unended [] c rest rfl (by simp)⟩

/-- So does the text of a type, behind its blanks. -/
theorem Derives.begins {text : List Char} {type : TypeExpr} (h : Derives text type) :
    Begins text := by
  have hfront : ∀ {blanks path : List Char} {head : Path}, Blanks blanks → PathText path head →
      Begins (blanks ++ path) := by
    intro blanks path head hblanks hpath
    obtain ⟨c, rest, rfl, hc⟩ := hpath.exists_begin
    exact ⟨blanks, c, rest, rfl, hblanks, hc⟩
  cases h with
  | bare hblanks hpath => exact hfront hblanks hpath
  | empty hblanks hpath | applied hblanks hpath =>
      simpa using (hfront hblanks hpath).append _

theorem DerivesArgs.begins {text : List Char} {types : List TypeExpr}
    (h : DerivesArgs text types) : Begins text := by
  cases h with
  | last htype => exact htype.begins.append _
  | cons htype => simpa using htype.begins.append _

/-- What follows a type: nothing, or a character that ends a path and opens no bracket. -/
def Follows (rest : List Char) : Prop :=
  ∀ c ∈ rest.head?, Scan.endsPath c = true ∧ c ≠ '['

theorem follows_nil : Follows [] := by
  simp [Follows]

/-- Blanks follow a type if what is behind them does. -/
theorem Blanks.follows {blanks rest : List Char} (h : Blanks blanks) (hrest : Follows rest) :
    Follows (blanks ++ rest) := by
  cases blanks with
  | nil => exact hrest
  | cons b blanks =>
      have hb : Unicode.isBlank b = true := h b List.mem_cons_self
      intro c hc
      obtain rfl : b = c := by simpa using hc
      refine ⟨by simp [Scan.endsPath, hb], ?_⟩
      rintro rfl
      exact absurd hb (by decide)

namespace Scan

variable (input : String)

/-- Behind an open bracket, what neither is a blank nor closes it is read as an argument. -/
theorem run_argument {rest : List Char}
    (h : ∀ c ∈ rest.head?, Unicode.isBlank c = false ∧ c ≠ ']') (frames : List Frame) (head : Path)
    (openAt offset : Nat) : run input offset ⟨frames, .opened head openAt⟩ rest =
      run input offset ⟨{ head, openAt } :: frames, .start⟩ rest := by
  cases rest with
  | nil => rfl
  | cons c rest =>
      obtain ⟨hblank, hclose⟩ := h c rfl
      simp [run, step, hblank, hclose]

/-- So is what is behind blanks. -/
theorem run_opened {text : List Char} (h : Begins text) (frames : List Frame) (head : Path)
    (openAt offset : Nat) : run input offset ⟨frames, .opened head openAt⟩ text =
      run input offset ⟨{ head, openAt } :: frames, .start⟩ text := by
  obtain ⟨blanks, c, rest, rfl, hblanks, hc⟩ := h
  have hfirst : Unicode.isBlank c = false ∧ c ≠ ']' := by
    simp only [endsPath, Bool.or_eq_false_iff, decide_eq_false_iff_not] at hc
    exact ⟨hc.2, hc.1.2⟩
  rw [run_blanks_opened input hblanks, run_blanks input hblanks,
    run_argument input (by simpa using hfirst)]

/-- Where a type can begin the text of a path is collected. -/
theorem run_collect_start {path : List Char} {after : Bool} (hne : path ≠ [])
    (hafter : quotedAfter false path = some after) (frames : List Frame) (offset : Nat)
    (rest : List Char) : run input offset ⟨frames, .start⟩ (path ++ rest) =
      run input (offset + width path) ⟨frames, .path (String.ofList path) after⟩ rest := by
  have hcollect := run_collect input hafter frames offset "" rest
  obtain ⟨c, chars, rfl⟩ := List.exists_cons_of_ne_nil hne
  have hc : endsPath c = false := (quotedAfter_eq_some_iff.mp hafter).1 [] c chars rfl (by simp)
  have hstart : run input offset ⟨frames, .start⟩ (c :: chars ++ rest) =
      run input offset ⟨frames, .path "" false⟩ (c :: chars ++ rest) := by
    rw [List.cons_append, run, run, step_start input hc]
  rw [hstart, hcollect, String.empty_append]
  rfl

/-- The text of a path is collected behind its blanks. -/
theorem run_pathText {blanks path : List Char} {head : Path} (hblanks : Blanks blanks)
    (hpath : PathText path head) (frames : List Frame) (offset : Nat) (rest : List Char) :
    run input offset ⟨frames, .start⟩ (blanks ++ path ++ rest) =
      run input (offset + width blanks + width path) ⟨frames, .path (String.ofList path) false⟩
        rest := by
  rw [List.append_assoc, run_blanks input hblanks,
    run_collect_start input hpath.ne_nil hpath.quotedAfter]

/-- A bracket behind the text of a path is opened. -/
theorem run_bracket {path : List Char} {head : Path} (hpath : PathText path head)
    (frames : List Frame) (offset : Nat) (rest : List Char) :
    run input offset ⟨frames, .path (String.ofList path) false⟩ ('[' :: rest) =
      run input (offset + 1) ⟨frames, .opened head offset⟩ rest := by
  have hends : endsPath '[' = true := by decide
  have hstep : step input offset ⟨frames, .path (String.ofList path) false⟩ '[' =
      .ok ⟨frames, .opened head offset⟩ := by
    simp [step, hends, hpath.parse]
  rw [run, hstep]
  rfl

/-- A text of a path that is none is refused where it ends. -/
theorem run_not_path {path : String} {e : ParseError} (hparse : Path.parse path = .error e)
    {after : Bool} {rest : List Char} (hrest : ∀ c ∈ rest.head?, after = false ∧ endsPath c = true)
    (frames : List Frame) (offset : Nat) :
    run input offset ⟨frames, .path path after⟩ rest = .error e := by
  cases rest with
  | nil => simp only [run, close, hparse]
  | cons c rest =>
      obtain ⟨rfl, hends⟩ := hrest c rfl
      have htick : c ≠ '\x60' := by
        rintro rfl
        exact absurd hends (by decide)
      have hstep : step input offset ⟨frames, .path path false⟩ c = .error e := by
        simp only [step, if_neg htick, hends, hparse]
        rfl
      rw [run, hstep]

/-- A type without brackets is complete when something follows it that is no bracket. -/
theorem run_bare {path : List Char} {head : Path} (hpath : PathText path head)
    (frames : List Frame) (offset : Nat) {rest : List Char} (hrest : Follows rest) :
    run input offset ⟨frames, .path (String.ofList path) false⟩ rest =
      run input offset ⟨frames, .complete ⟨head, []⟩⟩ rest := by
  cases rest with
  | nil => simp [run, Scan.close, hpath.parse]
  | cons c rest =>
      obtain ⟨hends, hopen⟩ := hrest c rfl
      have htick : c ≠ '\x60' := by
        rintro rfl
        exact absurd hends (by decide)
      have hstep : step input offset ⟨frames, .path (String.ofList path) false⟩ c =
          step input offset ⟨frames, .complete ⟨head, []⟩⟩ c := by
        simp [step, htick, hends, hopen, hpath.parse]
      rw [run, run, hstep]

mutual

/-- A text of a type is read as the type, whatever follows. -/
theorem run_derives : ∀ {text : List Char} {type : TypeExpr}, Derives text type →
    ∀ (frames : List Frame) (offset : Nat) {rest : List Char}, Follows rest → ∃ later,
      run input offset ⟨frames, .start⟩ (text ++ rest) =
        run input later ⟨frames, .complete type⟩ rest
  | _, _, .bare hblanks hpath, frames, offset, rest, hrest =>
    ⟨_, (run_pathText input hblanks hpath frames offset rest).trans
      (run_bare input hpath frames _ hrest)⟩
  | _, _, @Derives.empty blanks path inner head hblanks hpath hinner, frames, offset, rest, _ => by
    have hpathText := run_pathText input hblanks hpath frames offset ('[' :: (inner ++ ']' :: rest))
    rw [run_bracket input hpath, run_blanks_opened input hinner] at hpathText
    refine ⟨offset + width blanks + width path + 1 + width inner + 1, ?_⟩
    simp only [List.append_assoc, List.cons_append, List.nil_append] at hpathText ⊢
    exact hpathText
  | _, _, @Derives.applied blanks path inner head args hblanks hpath hargs, frames, offset, rest,
      _ => by
    have hpathText := run_pathText input hblanks hpath frames offset ('[' :: (inner ++ ']' :: rest))
    rw [run_bracket input hpath, run_opened input (hargs.begins.append (']' :: rest))] at hpathText
    obtain ⟨later, hlater⟩ :=
      run_derivesArgs hargs ⟨head, offset + width blanks + width path, []⟩ frames _ rest
    refine ⟨later, ?_⟩
    simp only [List.append_assoc, List.cons_append, List.nil_append] at hpathText ⊢
    exact hpathText.trans hlater

/-- Texts of types between commas are read as the arguments that an open bracket waits for. -/
theorem run_derivesArgs : ∀ {text : List Char} {types : List TypeExpr}, DerivesArgs text types →
    ∀ (frame : Frame) (outer : List Frame) (offset : Nat) (rest : List Char), ∃ later,
      run input offset ⟨frame :: outer, .start⟩ (text ++ ']' :: rest) =
        run input later ⟨outer, .complete ⟨frame.head, frame.args ++ types⟩⟩ rest
  | _, _, @DerivesArgs.last text blanks type htype hblanks, frame, outer, offset, rest => by
    have hfollows : Follows (blanks ++ ']' :: rest) :=
      hblanks.follows (by simp [Follows, endsPath])
    obtain ⟨later, hread⟩ := run_derives htype (frame :: outer) offset hfollows
    rw [run_blanks_complete input hblanks] at hread
    refine ⟨later + width blanks + 1, ?_⟩
    rw [List.append_assoc, hread]
    rfl
  | _, _, @DerivesArgs.cons text blanks more type types htype hblanks hmore, frame, outer, offset,
      rest => by
    have hfollows : Follows (blanks ++ ',' :: (more ++ ']' :: rest)) :=
      hblanks.follows (by simp [Follows, endsPath])
    obtain ⟨middle, hread⟩ := run_derives htype (frame :: outer) offset hfollows
    rw [run_blanks_complete input hblanks] at hread
    obtain ⟨later, hlater⟩ := run_derivesArgs hmore { frame with args := frame.args ++ [type] }
      outer (middle + width blanks + 1) rest
    refine ⟨later, ?_⟩
    simp only [List.append_assoc, List.cons_append, List.nil_append] at hread hlater ⊢
    exact hread.trans hlater

end

end Scan

/-- Every text is one of a type, or it is refused somewhere. -/
theorem judged_parse (text : String) : Scan.Judged text text.toList (parse text) :=
  Scan.Staged.empty.run text text.toList

/-- The texts that are read as a type are those of the grammar. -/
theorem parse_eq_ok_iff_derives {text : String} {type : TypeExpr} :
    parse text = .ok type ↔ Derives text.toList type := by
  constructor
  · intro h
    have hjudged := judged_parse text
    rw [h] at hjudged
    cases hjudged with
    | derives htype => exact htype
  · intro h
    obtain ⟨later, hrun⟩ := Scan.run_derives text h [] 0 follows_nil
    rw [List.append_nil] at hrun
    exact hrun

/-! ## Blanks that are read -/

theorem Blanks.count {blanks : List Char} (h : Blanks blanks) : blanks.count '\x60' = 0 :=
  List.count_eq_zero.mpr fun hmem => absurd (h _ hmem) (by decide)

theorem PathText.even {text : List Char} {head : Path} (h : PathText text head) :
    Even (text.count '\x60') := by
  simpa using Path.even_count_of_parse h.parse

mutual

/-- The backticks of a type come in pairs. -/
theorem Derives.even : ∀ {text : List Char} {type : TypeExpr}, Derives text type →
    Even (text.count '\x60')
  | _, _, .bare hblanks hpath => by
    simpa [hblanks.count] using hpath.even
  | _, _, .empty hblanks hpath hinner => by
    simpa [hblanks.count, hinner.count] using hpath.even
  | _, _, .applied hblanks hpath hargs => by
    simpa [hblanks.count] using hpath.even.add (DerivesArgs.even hargs)

theorem DerivesArgs.even : ∀ {text : List Char} {types : List TypeExpr}, DerivesArgs text types →
    Even (text.count '\x60')
  | _, _, .last htype hblanks => by
    simpa [hblanks.count] using htype.even
  | _, _, .cons htype hblanks hrest => by
    simpa [hblanks.count] using htype.even.add (DerivesArgs.even hrest)

end

/-- No blank stands at the end of a path, outside backticks. -/
theorem Unended.not_blank_at_end {front path before : List Char} {c : Char} (h : Unended path)
    (hne : path ≠ []) (hread : before ++ [c] = front ++ path) (hfront : Even (front.count '\x60'))
    (hbefore : Even (before.count '\x60')) : Unicode.isBlank c = false := by
  obtain ⟨path, last, rfl⟩ := List.eq_nil_or_concat path |>.resolve_left hne
  rw [List.concat_eq_append] at h hread
  rw [← List.append_assoc] at hread
  obtain ⟨rfl, rfl⟩ := List.append_singleton_inj.mp hread
  rw [List.count_append, Nat.even_add] at hbefore
  have hends := (unended_concat.mp h).2 (hbefore.mp hfront)
  simp only [Scan.endsPath, Bool.or_eq_false_iff] at hends
  exact hends.2

/-- No blank stands at the end of a type, outside backticks. -/
theorem Derives.not_blank_at_end {text before : List Char} {type : TypeExpr} {c : Char}
    (h : Derives text type) (htext : before ++ [c] = text) (hbefore : Even (before.count '\x60')) :
    Unicode.isBlank c = false := by
  cases h with
  | bare hblanks hpath =>
      exact hpath.unended.not_blank_at_end hpath.ne_nil htext (by simp [hblanks.count]) hbefore
  | empty | applied =>
      obtain ⟨-, rfl⟩ := List.append_singleton_inj.mp htext
      decide

namespace Scan

theorem ArgsBefore.even {front : List Char} {args : List TypeExpr} (h : ArgsBefore front args) :
    Even (front.count '\x60') := by
  induction h with
  | nil => exact Even.zero
  | concat _ htype hblanks ih => simpa [hblanks.count] using ih.add htype.even

theorem Framed.even {frames : List Frame} {front : List Char} (h : Framed frames front) :
    Even (front.count '\x60') := by
  induction h with
  | nil => exact Even.zero
  | cons _ hblanks hpath hargs ih =>
      simpa [hblanks.count] using ih.add (hpath.even.add hargs.even)

/-- A blank that is read outside backticks does not end a type: one has to begin, or a bracket is
open. -/
theorem Staged.of_blank {scan : Scan} {read before : List Char} {c : Char} (h : Staged scan read)
    (hread : before ++ [c] = read) (hbefore : Even (before.count '\x60'))
    (hc : Unicode.isBlank c = true) :
    scan.stage = .start ∨ (∃ head openAt, scan.stage = .opened head openAt) ∨
      (∃ type, scan.stage = .complete type) ∧ scan.frames ≠ [] := by
  cases h with
  | start => exact .inl rfl
  | opened => exact .inr (.inl ⟨_, _, rfl⟩)
  | path hframes hblanks hne hquoted =>
      have hunended := (quotedAfter_eq_some_iff.mp hquoted).1
      rw [← List.append_assoc] at hread
      have hfront := hframes.even
      rw [hunended.not_blank_at_end hne hread (by simpa [hblanks.count]) hbefore] at hc
      contradiction
  | complete hframes htype hblanks htop =>
      refine .inr (.inr ⟨⟨_, rfl⟩, ?_⟩)
      rintro rfl
      cases hframes
      rw [htop rfl, List.append_nil, List.nil_append] at hread
      rw [htype.not_blank_at_end hread hbefore] at hc
      contradiction

/-- Then the text goes on, and not with an open bracket. -/
theorem Staged.run_of_blank {input : String} {scan : Scan} {read before rest : List Char} {c : Char}
    {type : TypeExpr} (h : Staged scan read) (hread : before ++ [c] = read)
    (hbefore : Even (before.count '\x60')) (hc : Unicode.isBlank c = true) {offset : Nat}
    (hrun : Scan.run input offset scan rest = .ok type) : ∃ d, rest.head? = some d ∧ d ≠ '[' := by
  have hwaiting := h.of_blank hread hbefore hc
  obtain ⟨frames, stage⟩ := scan
  cases rest with
  | nil =>
      rcases hwaiting with rfl | ⟨⟨head, openAt, rfl⟩ | ⟨⟨type', rfl⟩, hframes⟩⟩
      · cases hrun
      · cases hrun
      · obtain ⟨frame, outer, rfl⟩ := List.exists_cons_of_ne_nil hframes
        cases hrun
  | cons d rest =>
      refine ⟨d, rfl, ?_⟩
      rintro rfl
      rcases hwaiting with rfl | ⟨⟨head, openAt, rfl⟩ | ⟨⟨type', rfl⟩, hframes⟩⟩
      · cases hrun
      · cases hrun
      · obtain ⟨frame, outer, rfl⟩ := List.exists_cons_of_ne_nil hframes
        cases hrun

end Scan

/-- Behind a blank outside backticks the text of a type goes on, and not with an open bracket. -/
theorem exists_behind_blank {text : String} {type : TypeExpr} {before after : List Char} {c : Char}
    (h : parse text = .ok type) (htext : text.toList = before ++ c :: after)
    (hbefore : Even (before.count '\x60')) (hc : Unicode.isBlank c = true) :
    ∃ d, after.head? = some d ∧ d ≠ '[' := by
  rw [parse, htext, List.append_cons] at h
  obtain ⟨scan, hscan, hrun⟩ := Scan.Staged.empty.run_prefix text h
  exact hscan.run_of_blank rfl hbefore hc hrun

end TypeExpr
end DeclGraph
