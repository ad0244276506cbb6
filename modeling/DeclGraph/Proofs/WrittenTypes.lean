import DeclGraph.Proofs.WrittenPaths
import DeclGraph.TypeExpr.Builtin
import DeclGraph.TypeExpr.Parser

/-!
# Written types read back

The text of a path is cut out of the text of a type before it is read, and the cut is at
the first bracket, comma or blank outside backticks.  None of these may stand in a name
that is written bare, and the backticks of a written path come in pairs.  So the cut is
where the path ends, and the path that is read is the one that was written.  Reading
the written form of a type therefore finds the type again, unless a name in it holds a
backtick.  No reading ever yields a type with a backtick in one of its names.

Main results:

- Theorem `TypeExpr.Scan.endsPath_of_isBareChar`: a bare name does not end the path that
  it is on.
- Theorem `TypeExpr.Scan.run_path`: a written path is read as the path.
- Theorem `TypeExpr.Scan.run_type`: a written type is read as the type, whatever follows.
- Theorem `TypeExpr.Scan.Unticked.run`: whatever is read holds no backtick.
- Theorem `TypeExpr.parse_text_iff_unticked_and_reread`: which types read back from their
  written form.
-/

namespace DeclGraph

/-! ## Disjoint character properties -/

/-- No interval of the one set meets an interval of the other. -/
def Unicode.Ranges.apart (a b : Ranges) : Bool :=
  List.all a fun i => List.all b fun j => i.2 < j.1 || j.2 < i.1

/-- Sets whose intervals do not meet have no character in common. -/
theorem Unicode.Ranges.not_contains_of_apart {a b : Ranges} (h : a.apart b = true) {c : Char}
    (hc : a.contains c = true) : b.contains c = false := by
  rw [apart, List.all_eq_true] at h
  obtain ⟨i, hi, hlow, hhigh⟩ := Ranges.contains_iff.mp hc
  have hapart := List.all_eq_true.mp (h i hi)
  rw [← Bool.not_eq_true, Ranges.contains_iff]
  rintro ⟨j, hj, hlow', hhigh'⟩
  have hmiss := hapart j hj
  rw [Bool.or_eq_true, decide_eq_true_eq, decide_eq_true_eq] at hmiss
  omega

namespace TypeExpr

/-- No name in the type holds a backtick. -/
def Unticked (type : TypeExpr) : Prop :=
  ∀ node ∈ type.nodes, ∀ name ∈ node.1.segments, name.Unticked

instance (type : TypeExpr) : Decidable type.Unticked :=
  inferInstanceAs (Decidable (∀ node ∈ type.nodes, ∀ name ∈ node.1.segments, name.Unticked))

/-- A type without backticks has none in its path, and none in its arguments. -/
theorem unticked_iff {head : Path} {args : List TypeExpr} :
    Unticked ⟨head, args⟩ ↔
      (∀ name ∈ head.segments, name.Unticked) ∧ ∀ type ∈ args, type.Unticked := by
  have hargs : (∀ node ∈ nodesOfList args, ∀ name ∈ node.1.segments, name.Unticked) ↔
      ∀ type ∈ args, type.Unticked := by
    induction args with
    | nil => simp [nodesOfList]
    | cons type rest ih => simp only [nodesOfList, List.forall_mem_append, ih, List.forall_mem_cons,
        Unticked]
  rw [Unticked, nodes, List.forall_mem_cons, hargs]

namespace Scan

/-! ## Paths within types -/

/-- No blank is an identifier character. -/
theorem blank_apart : Unicode.blankRanges.apart Unicode.identifierStartRanges = true ∧
    Unicode.blankRanges.apart Unicode.identifierContinueRanges = true := by
  decide +kernel

/-- No blank may stand in a name that is written bare. -/
theorem not_isBareChar_of_isBlank {c : Char} (h : Unicode.isBlank c = true) :
    Name.isBareChar c = false := by
  have hstart : Unicode.isIdentifierStart c = false :=
    Unicode.Ranges.not_contains_of_apart blank_apart.1 h
  have hcontinue : Unicode.isIdentifierContinue c = false :=
    Unicode.Ranges.not_contains_of_apart blank_apart.2 h
  have hother : c ≠ '_' ∧ c ≠ '$' := by
    constructor <;> rintro rfl <;> revert h <;> decide
  have hoperator : c ∉ Name.operatorChars := by
    have hnone : Name.operatorChars.any Unicode.isBlank = false := by decide
    intro hmem
    rw [List.any_eq_true.mpr ⟨c, hmem, h⟩] at hnone
    contradiction
  simp [Name.isBareChar, hother, hstart, hcontinue, hoperator]

/-- A bare name does not end the path that it is on. -/
theorem endsPath_of_isBareChar {c : Char} (h : Name.isBareChar c = true) : endsPath c = false := by
  have hmarks : ['[', ',', ']'].any Name.isBareChar = false := by decide +kernel
  have hblank : Unicode.isBlank c = false := by
    cases hc : Unicode.isBlank c with
    | false => rfl
    | true => rw [not_isBareChar_of_isBlank hc] at h; contradiction
  have hother : ∀ d ∈ ['[', ',', ']'], c ≠ d := by
    rintro d hd rfl
    rw [List.any_eq_true.mpr ⟨c, hd, h⟩] at hmarks
    contradiction
  simp only [List.forall_mem_cons] at hother
  simp [endsPath, hother, hblank]

/-- Whether a backtick is open after these characters of a path, if none of them ends the path. -/
def quotedAfter (quoted : Bool) : List Char → Option Bool
  | [] => some quoted
  | c :: rest =>
    if c = '\x60' then quotedAfter (!quoted) rest
    else if quoted || !endsPath c then quotedAfter quoted rest
    else none

theorem quotedAfter_append (quoted : Bool) (chars rest : List Char) :
    quotedAfter quoted (chars ++ rest) =
      (quotedAfter quoted chars).bind fun after => quotedAfter after rest := by
  induction chars generalizing quoted with
  | nil => rfl
  | cons c chars ih =>
      rw [List.cons_append, quotedAfter, quotedAfter, ih, ih]
      split
      · rfl
      · split <;> rfl

/-- Between backticks nothing ends the path. -/
theorem quotedAfter_of_unticked {chars : List Char} (h : '\x60' ∉ chars) :
    quotedAfter true chars = some true := by
  induction chars with
  | nil => rfl
  | cons c chars ih =>
      obtain ⟨hc, hchars⟩ := not_or.mp (mt List.mem_cons.mpr h)
      rw [quotedAfter, if_neg (Ne.symm hc), Bool.true_or, if_pos rfl, ih hchars]

/-- Bare characters do not end the path. -/
theorem quotedAfter_of_bare {chars : List Char}
    (h : ∀ c ∈ chars, c ≠ '\x60' ∧ Name.isBareChar c = true) :
    quotedAfter false chars = some false := by
  induction chars with
  | nil => rfl
  | cons c chars ih =>
      obtain ⟨⟨hc, hbare⟩, hchars⟩ := List.forall_mem_cons.mp h
      rw [quotedAfter, if_neg hc, endsPath_of_isBareChar hbare, if_pos (by rfl), ih hchars]

/-- A name between backticks does not end the path. -/
theorem quotedAfter_quoted {name : Name} (h : name.Unticked) :
    quotedAfter false name.quoted.toList = some false := by
  have htext : name.quoted.toList = '\x60' :: (name.raw.toList ++ ['\x60']) := by
    simp [Name.quoted]
  rw [htext, quotedAfter, if_pos rfl, Bool.not_false, quotedAfter_append,
    quotedAfter_of_unticked h]
  rfl

/-- A written name does not end the path, and leaves no backtick open. -/
theorem quotedAfter_text {name : Name} (h : name.Unticked) :
    quotedAfter false name.text.toList = some false := by
  cases hquoting : name.needsQuoting with
  | true =>
      rw [Name.text_of_needsQuoting hquoting]
      exact quotedAfter_quoted h
  | false =>
      rw [Name.text_of_not_needsQuoting hquoting]
      apply quotedAfter_of_bare
      intro c hc
      exact ⟨fun hsame => h (hsame ▸ hc), (Name.bare_of_not_needsQuoting hquoting).2 c hc⟩

/-- Neither does the written name at the beginning of a path. -/
theorem quotedAfter_leadingText {name : Name} (h : name.Unticked) :
    quotedAfter false (Path.leadingText name).toList = some false := by
  unfold Path.leadingText
  split
  · exact quotedAfter_quoted h
  · exact quotedAfter_text h

/-- Written names that are joined by dots do not end the path. -/
theorem quotedAfter_joined {text : String} {rest : List Name}
    (htext : quotedAfter false text.toList = some false) (h : ∀ name ∈ rest, name.Unticked) :
    quotedAfter false (".".intercalate (text :: rest.map Name.text)).toList = some false := by
  induction rest generalizing text with
  | nil => rwa [List.map_nil, String.intercalate_singleton]
  | cons second rest ih =>
      obtain ⟨hsecond, hlater⟩ := List.forall_mem_cons.mp h
      have hjoined : (".".intercalate (text :: (second :: rest).map Name.text)).toList =
          text.toList ++ '.' :: (".".intercalate (second.text :: rest.map Name.text)).toList := by
        rw [List.map_cons, String.intercalate_cons_cons]
        simp
      have hdot : ∀ chars, quotedAfter false ('.' :: chars) = quotedAfter false chars :=
        fun _ => rfl
      rw [hjoined, quotedAfter_append, htext, Option.bind_some, hdot, ih (quotedAfter_text hsecond)
        hlater]

/-- A written path goes on to its end, and leaves no backtick open. -/
theorem quotedAfter_pathText {path : Path} (h : ∀ name ∈ path.segments, name.Unticked) :
    quotedAfter false path.text.toList = some false := by
  rcases path with ⟨_ | ⟨first, rest⟩⟩
  · decide +kernel
  · obtain ⟨hfirst, hrest⟩ := List.forall_mem_cons.mp h
    exact quotedAfter_joined (quotedAfter_leadingText hfirst) hrest

/-! ## Reading written types -/

variable (input : String)

/-- The characters of a path are collected. -/
theorem run_collect {quoted after : Bool} {chars : List Char}
    (h : quotedAfter quoted chars = some after) (frames : List Frame) (offset : Nat) (text : String)
    (rest : List Char) : run input offset ⟨frames, .path text quoted⟩ (chars ++ rest) =
      run input (offset + (String.ofList chars).utf8ByteSize)
        ⟨frames, .path (text ++ String.ofList chars) after⟩ rest := by
  induction chars generalizing quoted offset text with
  | nil =>
      obtain rfl := Option.some.inj h
      simp
  | cons c chars ih =>
      have htext : text.push c ++ String.ofList chars = text ++ String.ofList (c :: chars) := by
        apply String.toList_inj.mp
        simp
      have hoffset : offset + c.utf8Size + (String.ofList chars).utf8ByteSize =
          offset + (String.ofList (c :: chars)).utf8ByteSize := by
        simp [String.ofList_cons, Nat.add_assoc]
      have hstep : ∃ middle, quotedAfter middle chars = some after ∧
          step input offset ⟨frames, .path text quoted⟩ c =
            .ok ⟨frames, .path (text.push c) middle⟩ := by
        unfold quotedAfter at h
        split at h
        · next htick => exact ⟨!quoted, h, by simp only [step, if_pos htick]⟩
        · next htick =>
            split at h
            · next hstays => exact ⟨quoted, h, by simp only [step, if_neg htick, if_pos hstays]⟩
            · contradiction
      obtain ⟨middle, hafter, hstep⟩ := hstep
      rw [List.cons_append, run, hstep]
      simp only [ih hafter, htext, hoffset]

/-- Where a type may begin, a character that does not end a path begins one. -/
theorem step_start {c : Char} (h : endsPath c = false) (frames : List Frame) (offset : Nat) :
    step input offset ⟨frames, .start⟩ c = step input offset ⟨frames, .path "" false⟩ c := by
  have hblank : Unicode.isBlank c = false := by
    simp only [endsPath, Bool.or_eq_false_iff] at h
    exact h.2
  by_cases hc : c = '\x60'
  · subst hc
    rfl
  · simp only [step, beginPath, hblank, h, hc]
    rfl

/-- Behind an open bracket, a character that does not end a path begins the first argument. -/
theorem step_opened {c : Char} (h : endsPath c = false) (frames : List Frame) (head : Path)
    (openAt offset : Nat) : step input offset ⟨frames, .opened head openAt⟩ c =
      step input offset ⟨{ head, openAt } :: frames, .start⟩ c := by
  simp only [endsPath, Bool.or_eq_false_iff, decide_eq_false_iff_not] at h
  simp [step, h.2, h.1.2]

/-- A written path begins with a character that does not end it. -/
theorem exists_begin {path : Path} (h : ∀ name ∈ path.segments, name.Unticked) :
    ∃ c chars, path.text.toList = c :: chars ∧ endsPath c = false := by
  cases htext : path.text.toList with
  | nil =>
      have hread := Path.parse_text h
      rw [String.toList_eq_nil_iff.mp htext, Path.parse_empty] at hread
      contradiction
  | cons c chars =>
      refine ⟨c, chars, rfl, ?_⟩
      have hafter := quotedAfter_pathText h
      rw [htext, quotedAfter] at hafter
      split at hafter
      · next htick =>
          subst htick
          rfl
      · split at hafter
        · next hstays => simpa using hstays
        · contradiction

/-- A written path in front of a bracket is read as the path. -/
theorem run_path {path : Path} (h : ∀ name ∈ path.segments, name.Unticked) (frames : List Frame)
    (offset : Nat) (rest : List Char) : ∃ openAt later,
      run input offset ⟨frames, .start⟩ (path.text.toList ++ '[' :: rest) =
        run input later ⟨frames, .opened path openAt⟩ rest := by
  obtain ⟨c, chars, htext, hbegin⟩ := exists_begin h
  have hstart : run input offset ⟨frames, .start⟩ (path.text.toList ++ '[' :: rest) =
      run input offset ⟨frames, .path "" false⟩ (path.text.toList ++ '[' :: rest) := by
    rw [htext, List.cons_append, run, run, step_start input hbegin]
  have hopen := run_collect input (quotedAfter_pathText h) frames offset "" ('[' :: rest)
  rw [String.ofList_toList, String.empty_append] at hopen
  have hbracket : ∀ at', step input at' ⟨frames, .path path.text false⟩ '[' =
      .ok ⟨frames, .opened path at'⟩ := by
    intro at'
    have hends : endsPath '[' = true := by decide
    simp [step, hends, Path.parse_text h]
  refine ⟨offset + path.text.utf8ByteSize, offset + path.text.utf8ByteSize + '['.utf8Size, ?_⟩
  rw [hstart, hopen, run, hbracket]

/-- The text of a type begins with the text of its path. -/
theorem toList_text (head : Path) (args : List TypeExpr) : (text ⟨head, args⟩).toList =
    head.text.toList ++ '[' :: ((", ".intercalate (args.map text)).toList ++ [']']) := by
  simp [text]

/-- The texts of several types begin with the text of the first one. -/
theorem toList_texts_cons (first second : TypeExpr) (rest : List TypeExpr) :
    (", ".intercalate ((first :: second :: rest).map text)).toList =
      first.text.toList ++
        ',' :: ' ' :: (", ".intercalate ((second :: rest).map text)).toList := by
  rw [List.map_cons, List.map_cons, String.intercalate_cons_cons]
  simp

/-- The texts of several types begin with a character that does not end a path. -/
theorem exists_begin_texts {first : TypeExpr} (h : first.Unticked) (rest : List TypeExpr) :
    ∃ c chars, (", ".intercalate ((first :: rest).map text)).toList = c :: chars ∧
      endsPath c = false := by
  obtain ⟨head, args⟩ := first
  obtain ⟨c, chars, htext, hbegin⟩ := exists_begin (unticked_iff.mp h).1
  cases rest with
  | nil =>
      rw [List.map_singleton, String.intercalate_singleton, toList_text, htext]
      exact ⟨c, _, rfl, hbegin⟩
  | cons second rest =>
      rw [toList_texts_cons, toList_text, htext]
      exact ⟨c, _, rfl, hbegin⟩

/-- What is read after a complete argument, up to the comma and the blank behind it. -/
theorem run_comma (frame : Frame) (outer : List Frame) (type : TypeExpr) (offset : Nat)
    (rest : List Char) : ∃ later,
      run input offset ⟨frame :: outer, .complete type⟩ (',' :: ' ' :: rest) =
        run input later ⟨{ frame with args := frame.args ++ [type] } :: outer, .start⟩ rest :=
  ⟨offset + 1 + 1, rfl⟩

mutual

/-- A written type is read as the type, whatever follows. -/
theorem run_type : ∀ {type : TypeExpr}, type.Unticked →
    ∀ (frames : List Frame) (offset : Nat) (rest : List Char), ∃ later,
      run input offset ⟨frames, .start⟩ (type.text.toList ++ rest) =
        run input later ⟨frames, .complete type⟩ rest
  | ⟨head, []⟩, h, frames, offset, rest => by
    obtain ⟨openAt, later, hopened⟩ :=
      run_path input (unticked_iff.mp h).1 frames offset (']' :: rest)
    refine ⟨later + 1, ?_⟩
    rw [toList_text, List.map_nil, String.intercalate_nil, List.append_assoc, List.cons_append]
    exact hopened
  | ⟨head, first :: args⟩, h, frames, offset, rest => by
    obtain ⟨hhead, hargs⟩ := unticked_iff.mp h
    obtain ⟨c, chars, htext, hbegin⟩ :=
      exists_begin_texts (hargs first List.mem_cons_self) args
    obtain ⟨openAt, middle, hopened⟩ := run_path input hhead frames offset
      ((", ".intercalate ((first :: args).map text)).toList ++ ']' :: rest)
    obtain ⟨later, hlater⟩ :=
      run_args hargs (List.cons_ne_nil _ _) ⟨head, openAt, []⟩ frames middle rest
    refine ⟨later, ?_⟩
    have hfirst : run input middle ⟨frames, .opened head openAt⟩
        ((", ".intercalate ((first :: args).map text)).toList ++ ']' :: rest) =
          run input middle ⟨⟨head, openAt, []⟩ :: frames, .start⟩
            ((", ".intercalate ((first :: args).map text)).toList ++ ']' :: rest) := by
      rw [htext, List.cons_append, run, run, step_opened input hbegin]
    rw [toList_text, List.append_assoc, List.cons_append, List.append_assoc, List.singleton_append,
      hopened, hfirst, hlater, List.nil_append]

/-- Written types between commas are read as the arguments that an open bracket waits for. -/
theorem run_args : ∀ {types : List TypeExpr}, (∀ type ∈ types, type.Unticked) → types ≠ [] →
    ∀ (frame : Frame) (outer : List Frame) (offset : Nat) (rest : List Char), ∃ later,
      run input offset ⟨frame :: outer, .start⟩
          ((", ".intercalate (types.map text)).toList ++ ']' :: rest) =
        run input later ⟨outer, .complete ⟨frame.head, frame.args ++ types⟩⟩ rest
  | [], _, hne, _, _, _, _ => absurd rfl hne
  | [type], h, _, frame, outer, offset, rest => by
    obtain ⟨later, hread⟩ :=
      run_type (h type List.mem_cons_self) (frame :: outer) offset (']' :: rest)
    refine ⟨later + 1, ?_⟩
    rw [List.map_singleton, String.intercalate_singleton, hread]
    rfl
  | first :: second :: args, h, _, frame, outer, offset, rest => by
    obtain ⟨hfirst, hargs⟩ := List.forall_mem_cons.mp h
    obtain ⟨middle, hread⟩ := run_type hfirst (frame :: outer) offset
      (',' :: ' ' :: ((", ".intercalate ((second :: args).map text)).toList ++ ']' :: rest))
    obtain ⟨next, hcomma⟩ := run_comma input frame outer first middle
      ((", ".intercalate ((second :: args).map text)).toList ++ ']' :: rest)
    obtain ⟨later, hlater⟩ := run_args hargs (List.cons_ne_nil _ _)
      { frame with args := frame.args ++ [first] } outer next rest
    refine ⟨later, ?_⟩
    rw [toList_texts_cons, List.append_assoc, List.cons_append, List.cons_append, hread, hcomma,
      hlater, List.append_assoc, List.singleton_append]

end

end Scan

/-- A type without backticks reads back from its written form. -/
theorem parse_text {type : TypeExpr} (h : type.Unticked) : parse type.text = .ok type := by
  obtain ⟨later, hread⟩ := Scan.run_type type.text h [] 0 []
  rw [List.append_nil] at hread
  rw [parse]
  exact hread

/-! ## What is read holds no backtick -/

/-- Neither the path in front of an open bracket nor a complete argument behind it holds a
backtick. -/
structure Frame.Unticked (frame : Frame) : Prop where
  head : ∀ name ∈ frame.head.segments, name.Unticked
  args : ∀ type ∈ frame.args, type.Unticked

/-- No path and no type that is complete holds a backtick. -/
def Stage.Unticked : Stage → Prop
  | start => True
  | opened head _ => ∀ name ∈ head.segments, name.Unticked
  | path _ _ => True
  | complete type => type.Unticked

namespace Scan

/-- Nothing that was read so far holds a backtick. -/
structure Unticked (scan : Scan) : Prop where
  frames : ∀ frame ∈ scan.frames, frame.Unticked
  stage : scan.stage.Unticked

variable {input : String} {offset : Nat} {c : Char} {scan next : Scan}

/-- The beginning of a path completes nothing. -/
theorem unticked_beginPath {frames : List Frame} (hframes : ∀ frame ∈ frames, frame.Unticked)
    (h : beginPath input offset frames c = .ok next) : next.Unticked := by
  unfold beginPath at h
  split at h
  · contradiction
  · cases h
    exact ⟨hframes, trivial⟩

/-- A complete type becomes an argument of the type around it. -/
theorem unticked_afterType {frames : List Frame} {type : TypeExpr}
    (hframes : ∀ frame ∈ frames, frame.Unticked) (htype : type.Unticked)
    (h : afterType input offset frames type c = .ok next) : next.Unticked := by
  cases frames with
  | nil => contradiction
  | cons frame outer =>
      obtain ⟨hframe, houter⟩ := List.forall_mem_cons.mp hframes
      have hargs : ∀ arg ∈ frame.args ++ [type], arg.Unticked := by
        rw [List.forall_mem_append, List.forall_mem_singleton]
        exact ⟨hframe.args, htype⟩
      simp only [afterType] at h
      split at h
      · cases h
        exact ⟨hframes, htype⟩
      · split at h
        · cases h
          exact ⟨List.forall_mem_cons.mpr ⟨⟨hframe.head, hargs⟩, houter⟩, trivial⟩
        · split at h
          · cases h
            exact ⟨houter, unticked_iff.mpr ⟨hframe.head, hargs⟩⟩
          · contradiction

/-- No character brings a backtick into what is complete: a path is read without them. -/
theorem Unticked.step (h : scan.Unticked) (hstep : scan.step input offset c = .ok next) :
    next.Unticked := by
  obtain ⟨frames, stage⟩ := scan
  obtain ⟨hframes, hstage⟩ := h
  cases stage with
  | start =>
      simp only [Scan.step] at hstep
      split at hstep
      · cases hstep
        exact ⟨hframes, hstage⟩
      · exact unticked_beginPath hframes hstep
  | opened head openAt =>
      simp only [Scan.step] at hstep
      split at hstep
      · cases hstep
        exact ⟨hframes, hstage⟩
      · split at hstep
        · cases hstep
          exact ⟨hframes, unticked_iff.mpr ⟨hstage, by simp⟩⟩
        · have hopened : Frame.Unticked ⟨head, openAt, []⟩ := ⟨hstage, by simp⟩
          exact unticked_beginPath (List.forall_mem_cons.mpr ⟨hopened, hframes⟩) hstep
  | path text quoted =>
      simp only [Scan.step] at hstep
      split at hstep
      · cases hstep
        exact ⟨hframes, trivial⟩
      · split at hstep
        · cases hstep
          exact ⟨hframes, trivial⟩
        · split at hstep
          · contradiction
          · next head hhead =>
              have hnames := Path.unticked_of_parse hhead
              split at hstep
              · cases hstep
                exact ⟨hframes, hnames⟩
              · exact unticked_afterType hframes (unticked_iff.mpr ⟨hnames, by simp⟩) hstep
  | complete type => exact unticked_afterType hframes hstage hstep

/-- The type that was read when the text ends holds no backtick. -/
theorem Unticked.close {type : TypeExpr} (h : scan.Unticked)
    (hclose : scan.close input = .ok type) : type.Unticked := by
  have hcloseType : ∀ {frames : List Frame} {whole : TypeExpr}, whole.Unticked →
      closeType input frames whole = .ok type → type.Unticked := by
    rintro (_ | _) whole hwhole hclosed
    · cases hclosed
      exact hwhole
    · contradiction
  obtain ⟨frames, stage⟩ := scan
  cases stage with
  | start => contradiction
  | opened head openAt => contradiction
  | path text quoted =>
      simp only [Scan.close] at hclose
      split at hclose
      · contradiction
      · next head hhead =>
          exact hcloseType (unticked_iff.mpr ⟨Path.unticked_of_parse hhead, by simp⟩) hclose
  | complete type => exact hcloseType h.stage hclose

/-- No text brings a backtick into what is read. -/
theorem Unticked.run {chars : List Char} {type : TypeExpr} (h : scan.Unticked)
    (hrun : Scan.run input offset scan chars = .ok type) : type.Unticked := by
  induction chars generalizing offset scan with
  | nil => exact h.close hrun
  | cons c chars ih =>
      rw [Scan.run] at hrun
      split at hrun
      · contradiction
      · next later hstep => exact ih (h.step hstep) hrun

end Scan

/-- No type that can be read has a backtick in one of its names. -/
theorem unticked_of_parse {text : String} {type : TypeExpr} (h : parse text = .ok type) :
    type.Unticked := by
  have hstart : Scan.Unticked {} := ⟨by simp, trivial⟩
  exact hstart.run h

/-- **Which types read back.**  A type reads back from its written form exactly when no name on a
path in it has a backtick.  So does every type that was read from some text, canonical or not. -/
theorem parse_text_iff_unticked_and_reread :
    (∀ type : TypeExpr, parse type.text = .ok type ↔
      ∀ node ∈ type.nodes, ∀ name ∈ node.1.segments, '\x60' ∉ name.raw.toList) ∧
    ∀ (text : String) (type : TypeExpr), parse text = .ok type → parse type.text = .ok type :=
  ⟨fun _ => ⟨unticked_of_parse, parse_text⟩, fun _ _ h => parse_text (unticked_of_parse h)⟩

/-- A type with brackets, commas and blanks in its names, with the root and an empty name in it. -/
def crowded : TypeExpr where
  head := ⟨[⟨"a"⟩, ⟨"b["⟩]⟩
  args := [ofPath ⟨[⟨",x y"⟩]⟩, ofPath Path.root, ⟨⟨[Name.empty]⟩, [ofPath ⟨[⟨"b"⟩]⟩]⟩]

/-- A text of that type with blanks that its written form does not have, and without some of the
brackets. -/
theorem reread_crowded :
    parse " a.`b[`[`,x y` ,\t_root_[ ] , ``[b]]" = .ok crowded ∧
      parse crowded.text = .ok crowded := by
  have hread : parse " a.`b[`[`,x y` ,\t_root_[ ] , ``[b]]" = .ok crowded := rfl
  exact ⟨hread, parse_text_iff_unticked_and_reread.2 _ _ hread⟩

end TypeExpr
end DeclGraph
