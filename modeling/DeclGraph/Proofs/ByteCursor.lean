import DeclGraph.Proofs.TypeGrammar

/-!
# Reading types at a byte cursor

A type can be read by descent: a path, and behind an open bracket one type after the other.
The place in the text is a number of bytes, which is moved over blanks, over the text of a
path and over single marks, and the text is looked at, and cut, at such places only.  The
numbers have to fall between characters, and something has to be read in every round.

Main results:

- Theorem `TypeExpr.Cursor.charsFrom_eq_some_iff`: where a text can be cut.
- Theorem `TypeExpr.Cursor.typesRead_and_argsRead`: a type is read from every place between
  characters on, in as many rounds as characters are left, and two more.
- Theorem `TypeExpr.Cursor.parseWithin_eq`: the descent comes to what one pass comes to.
- Theorem `TypeExpr.parse_iff_derives`: the texts that are read are those of the grammar.
-/

namespace DeclGraph
namespace TypeExpr
namespace Cursor

/-! ## The cursor -/

/-- Why a descent stops without a type. -/
inductive Stop
  /-- The text is no type. -/
  | refused (e : ParseError)
  /-- The text was to be cut inside a character or behind its end. -/
  | split (offset : Nat)
  /-- More rounds were needed than were allowed for. -/
  | rounds
deriving DecidableEq

/-- The characters from a byte on, if a character begins there or the text ends there. -/
def charsFrom : List Char → Nat → Option (List Char)
  | chars, 0 => some chars
  | [], _ + 1 => none
  | c :: rest, offset + 1 =>
    if c.utf8Size ≤ offset + 1 then charsFrom rest (offset + 1 - c.utf8Size) else none

/-- The characters from the cursor on. -/
def remaining (text : String) (offset : Nat) : Except Stop (List Char) :=
  match charsFrom text.toList offset with
  | some chars => .ok chars
  | none => .error (.split offset)

/-- The character at the cursor. -/
def peek (text : String) (offset : Nat) : Except Stop (Option Char) := do
  let chars ← remaining text offset
  return chars.head?

/-- The text between two places. -/
def slice (text : String) (start stop : Nat) : Except Stop String := do
  if stop < start then .error (.split stop)
  else
    let chars ← remaining text start
    let rest ← remaining text stop
    return String.ofList (chars.take (chars.length - rest.length))

/-- Move over blanks. -/
def skipBlanks (text : String) : Nat → Nat → Except Stop Nat
  | 0, _ => .error .rounds
  | rounds + 1, offset => do
    match ← peek text offset with
    | none => return offset
    | some c =>
      if Unicode.isBlank c then skipBlanks text rounds (offset + c.utf8Size) else return offset

/-- Move to the end of a path; `quoted` tells whether a backtick is open. -/
def skipPath (text : String) : Nat → Nat → Bool → Except Stop Nat
  | 0, _, _ => .error .rounds
  | rounds + 1, offset, quoted => do
    match ← peek text offset with
    | none => return offset
    | some c =>
      if c = '\x60' then skipPath text rounds (offset + c.utf8Size) (!quoted)
      else if !quoted && Scan.endsPath c then return offset
      else skipPath text rounds (offset + c.utf8Size) quoted

/-- Read a path, and tell where it ends. -/
def readPath (text : String) (rounds offset : Nat) : Except Stop (Path × Nat) := do
  let stop ← skipPath text rounds offset false
  let piece ← slice text offset stop
  if piece.isEmpty then
    match ← peek text stop with
    | some c => .error (.refused (.unexpectedChar text stop c))
    | none => .error (.refused (.unexpectedEnd text))
  else if piece = Path.rootLiteral then return (Path.root, stop)
  else
    match Path.parse piece with
    | .ok head => return (head, stop)
    | .error e => .error (.refused e)

mutual

/-- Read a type, and tell where it ends. -/
def readType (text : String) : Nat → Nat → Except Stop (TypeExpr × Nat)
  | 0, _ => .error .rounds
  | rounds + 1, offset => do
    let start ← skipBlanks text rounds offset
    let (head, stop) ← readPath text rounds start
    if (← peek text stop) = some '[' then
      let first ← skipBlanks text rounds (stop + 1)
      if (← peek text first) = some ']' then return (⟨head, []⟩, first + 1)
      else readArgs text head stop [] rounds first
    else return (⟨head, []⟩, stop)

/-- Read the arguments that are left of the type whose bracket stands at `openAt`, and tell where
the type ends. -/
def readArgs (text : String) (head : Path) (openAt : Nat) (args : List TypeExpr) :
    Nat → Nat → Except Stop (TypeExpr × Nat)
  | 0, _ => .error .rounds
  | rounds + 1, offset => do
    let (type, stop) ← readType text rounds offset
    let next ← skipBlanks text rounds stop
    match ← peek text next with
    | none => .error (.refused (.unclosedBracket text openAt))
    | some c =>
      if c = ',' then readArgs text head openAt (args ++ [type]) rounds (next + 1)
      else if c = ']' then return (⟨head, args ++ [type]⟩, next + 1)
      else .error (.refused (.unexpectedChar text next c))

end

/-- Read a whole text as a type. -/
def parseWithin (rounds : Nat) (text : String) : Except Stop TypeExpr := do
  let (type, stop) ← readType text rounds 0
  match ← peek text stop with
  | none => return type
  | some c => .error (.refused (.unexpectedChar text stop c))

/-! ## Places between characters -/

@[simp]
theorem charsFrom_zero (chars : List Char) : charsFrom chars 0 = some chars := by
  cases chars <;> rfl

/-- Behind the first character is where the rest is cut. -/
@[simp]
theorem charsFrom_cons_add (c : Char) (rest : List Char) (offset : Nat) :
    charsFrom (c :: rest) (c.utf8Size + offset) = charsFrom rest offset := by
  have hpos := c.utf8Size_pos
  obtain ⟨n, hn⟩ : ∃ n, c.utf8Size + offset = n + 1 := ⟨c.utf8Size + offset - 1, by omega⟩
  rw [hn, charsFrom, if_pos (by omega), ← hn, Nat.add_sub_cancel_left]

/-- A text can be cut exactly behind the bytes of its first characters. -/
theorem charsFrom_eq_some_iff {chars rest : List Char} {offset : Nat} :
    charsFrom chars offset = some rest ↔ ∃ done, chars = done ++ rest ∧ offset = width done := by
  constructor
  · intro h
    induction chars generalizing offset with
    | nil =>
        cases offset with
        | zero => exact ⟨[], Option.some.inj h, rfl⟩
        | succ n => cases h
    | cons c chars ih =>
        cases offset with
        | zero => exact ⟨[], Option.some.inj h, rfl⟩
        | succ n =>
            unfold charsFrom at h
            split at h
            · next hfits =>
                obtain ⟨done, rfl, hwidth⟩ := ih h
                exact ⟨c :: done, rfl, by rw [width_cons]; omega⟩
            · contradiction
  · rintro ⟨done, rfl, rfl⟩
    induction done with
    | nil => simp
    | cons c done ih => simpa using ih

variable {text : String} {done piece rest : List Char}

theorem remaining_eq (htext : text.toList = done ++ rest) :
    remaining text (width done) = .ok rest := by
  simp only [remaining, charsFrom_eq_some_iff.mpr ⟨done, htext, rfl⟩]

theorem peek_eq (htext : text.toList = done ++ rest) : peek text (width done) = .ok rest.head? := by
  rw [peek, remaining_eq htext]
  rfl

/-- No character begins at the second byte of this one. -/
example : peek "é" 1 = .error (.split 1) :=
  rfl

/-- Between two such places stands what was read from the one to the other. -/
theorem slice_eq (htext : text.toList = done ++ piece ++ rest) :
    slice text (width done) (width (done ++ piece)) = .ok (String.ofList piece) := by
  have hstart : remaining text (width done) = .ok (piece ++ rest) :=
    remaining_eq (by rw [htext, List.append_assoc])
  rw [slice, if_neg (by simp), hstart, remaining_eq htext]
  simp [bind, Except.bind, pure, Except.pure]

/-! ## Moving the cursor -/

/-- Blanks are moved over as far as they go. -/
theorem skipBlanks_eq (htext : text.toList = done ++ rest) {rounds : Nat}
    (hrounds : rest.length < rounds) : ∃ blanks tail, rest = blanks ++ tail ∧ Blanks blanks ∧
      (∀ c ∈ tail.head?, Unicode.isBlank c = false) ∧
      skipBlanks text rounds (width done) = .ok (width (done ++ blanks)) := by
  induction rest generalizing done rounds with
  | nil =>
      obtain ⟨rounds, rfl⟩ := Nat.exists_eq_succ_of_ne_zero (Nat.ne_zero_of_lt hrounds)
      refine ⟨[], [], rfl, blanks_nil, by simp, ?_⟩
      rw [skipBlanks, peek_eq htext, List.append_nil]
      rfl
  | cons c rest ih =>
      obtain ⟨rounds, rfl⟩ := Nat.exists_eq_succ_of_ne_zero (Nat.ne_zero_of_lt hrounds)
      rw [skipBlanks, peek_eq htext]
      by_cases hc : Unicode.isBlank c = true
      · have hnext : text.toList = done ++ [c] ++ rest := by simp [htext]
        obtain ⟨blanks, tail, rfl, hblanks, htail, hskip⟩ :=
          ih hnext (Nat.lt_of_succ_lt_succ hrounds)
        refine ⟨c :: blanks, tail, rfl, List.forall_mem_cons.mpr ⟨hc, hblanks⟩, htail, ?_⟩
        rw [List.append_cons, ← hskip]
        simp [bind, Except.bind, hc]
      · refine ⟨[], c :: rest, rfl, blanks_nil, by simpa using hc, ?_⟩
        simp [bind, Except.bind, pure, Except.pure, hc]

/-- The text of a path is moved over as far as it goes. -/
theorem skipPath_eq (htext : text.toList = done ++ rest) {rounds : Nat}
    (hrounds : rest.length < rounds) (quoted : Bool) : ∃ piece tail after,
      rest = piece ++ tail ∧ Scan.quotedAfter quoted piece = some after ∧
      (∀ c ∈ tail.head?, after = false ∧ Scan.endsPath c = true) ∧
      skipPath text rounds (width done) quoted = .ok (width (done ++ piece)) := by
  induction rest generalizing done rounds quoted with
  | nil =>
      obtain ⟨rounds, rfl⟩ := Nat.exists_eq_succ_of_ne_zero (Nat.ne_zero_of_lt hrounds)
      refine ⟨[], [], quoted, rfl, rfl, by simp, ?_⟩
      rw [skipPath, peek_eq htext, List.append_nil]
      rfl
  | cons c rest ih =>
      obtain ⟨rounds, rfl⟩ := Nat.exists_eq_succ_of_ne_zero (Nat.ne_zero_of_lt hrounds)
      rw [skipPath, peek_eq htext]
      have hnext : text.toList = done ++ [c] ++ rest := by simp [htext]
      have hfewer := Nat.lt_of_succ_lt_succ hrounds
      by_cases htick : c = '\x60'
      · obtain ⟨piece, tail, after, rfl, hafter, htail, hskip⟩ := ih hnext hfewer (!quoted)
        refine ⟨c :: piece, tail, after, rfl, ?_, htail, ?_⟩
        · rwa [Scan.quotedAfter, if_pos htick]
        · rw [List.append_cons, ← hskip]
          simp [bind, Except.bind, htick]
      · by_cases hends : (!quoted && Scan.endsPath c) = true
        · refine ⟨[], c :: rest, quoted, rfl, rfl, by simpa using hends, ?_⟩
          simp [bind, Except.bind, pure, Except.pure, htick, hends]
        · obtain ⟨piece, tail, after, rfl, hafter, htail, hskip⟩ := ih hnext hfewer quoted
          refine ⟨c :: piece, tail, after, rfl, ?_, htail, ?_⟩
          · have hstays : (quoted || !Scan.endsPath c) = true := by
              simpa [or_iff_not_imp_left] using hends
            rwa [Scan.quotedAfter, if_neg htick, if_pos hstays]
          · rw [List.append_cons, ← hskip]
            simp [bind, Except.bind, htick, hends]

/-! ## The descent and the scan -/

/-- A path is read as one pass collects it, or is refused as there. -/
theorem readPath_cases (htext : text.toList = done ++ rest) {rounds : Nat}
    (hrounds : rest.length < rounds) (hrest : ∀ c ∈ rest.head?, Unicode.isBlank c = false) :
    (∃ path tail head, rest = path ++ tail ∧ PathText path head ∧
        (∀ c ∈ tail.head?, Scan.endsPath c = true) ∧
        readPath text rounds (width done) = .ok (head, width (done ++ path))) ∨
      ∃ e, readPath text rounds (width done) = .error (.refused e) ∧
        ∀ frames, Scan.run text (width done) ⟨frames, .start⟩ rest = .error e := by
  obtain ⟨path, tail, after, rfl, hafter, htail, hskip⟩ := skipPath_eq htext hrounds false
  rw [← List.append_assoc] at htext
  rw [readPath, hskip]
  simp only [bind, Except.bind, pure, Except.pure, slice_eq htext, peek_eq htext]
  by_cases hempty : path = []
  · -- nothing can begin here
    subst hempty
    right
    rw [List.append_nil] at htext ⊢
    cases tail with
    | nil => exact ⟨_, rfl, fun _ => rfl⟩
    | cons c tail =>
        have hblank := hrest c rfl
        have hends := (htail c rfl).2
        refine ⟨.unexpectedChar text (width done) c, by simp, fun frames => ?_⟩
        simp [Scan.run, Scan.step, Scan.beginPath, hblank, hends]
  · have hne : (String.ofList path).isEmpty = false := by simpa using hempty
    cases hparse : Path.parse (String.ofList path) with
    | error e =>
        have hroot : String.ofList path ≠ Path.rootLiteral := by
          intro hroot
          rw [hroot, Path.parse_rootLiteral] at hparse
          contradiction
        refine .inr ⟨e, by simp [hne, hroot], fun frames => ?_⟩
        rw [Scan.run_collect_start text hempty hafter, Scan.run_not_path text hparse htail]
    | ok head =>
        have hpath : PathText path head :=
          ⟨hempty, (Scan.quotedAfter_eq_some_iff.mp hafter).1, hparse⟩
        refine .inl ⟨path, tail, head, rfl, hpath, fun c hc => (htail c hc).2, ?_⟩
        by_cases hroot : String.ofList path = Path.rootLiteral
        · rw [hroot, Path.parse_rootLiteral] at hparse
          cases hparse
          simp only [hne, Bool.false_eq_true, if_false, if_pos hroot]
        · simp only [hne, Bool.false_eq_true, if_false, if_neg hroot]

/-- What a descent comes to from a place on, where the scan would be as told for the open brackets
around it: it is refused as the scan refuses the text, or the scan has read as much. -/
inductive Reads (text : String) (done rest : List Char) (scan : List Frame → Scan) :
    Except Stop (TypeExpr × Nat) → Prop
  | refused {e : ParseError}
      (hrun : ∀ frames, Scan.run text (width done) (scan frames) rest = .error e) :
      Reads text done rest scan (.error (.refused e))
  | read {part tail : List Char} {type : TypeExpr} {stop : Nat} (hrest : rest = part ++ tail)
      (hne : part ≠ []) (hstop : stop = width (done ++ part))
      (hrun : ∀ frames, Scan.run text (width done) (scan frames) rest =
        Scan.run text stop ⟨frames, .complete type⟩ tail) :
      Reads text done rest scan (.ok (type, stop))

/-- What the scan reads first it may have read before. -/
theorem Reads.after {part : List Char} {scan : List Frame → Scan} (next : List Frame → Scan)
    {result : Except Stop (TypeExpr × Nat)} (h : Reads text (done ++ part) rest next result)
    (hrun : ∀ frames, Scan.run text (width done) (scan frames) (part ++ rest) =
      Scan.run text (width (done ++ part)) (next frames) rest) :
    Reads text done (part ++ rest) scan result := by
  cases h with
  | refused hrefused => exact .refused fun frames => (hrun frames).trans (hrefused frames)
  | @read more tail type stop hrest hne hstop hread =>
      have hpart : part ++ rest = (part ++ more) ++ tail := by rw [hrest, List.append_assoc]
      rw [List.append_assoc] at hstop
      exact .read hpart (by simp [hne]) hstop fun frames => (hrun frames).trans (hread frames)

/-- Types are read from every place on, in as many rounds. -/
def TypesRead (text : String) (rounds : Nat) : Prop :=
  ∀ {done rest : List Char}, text.toList = done ++ rest → rest.length + 2 ≤ rounds →
    Reads text done rest (fun frames => ⟨frames, .start⟩) (readType text rounds (width done))

/-- So are the arguments that are left of a type. -/
def ArgsRead (text : String) (rounds : Nat) : Prop :=
  ∀ {done rest : List Char} (head : Path) (openAt : Nat) (args : List TypeExpr),
    text.toList = done ++ rest → rest.length + 3 ≤ rounds →
    Reads text done rest (fun frames => ⟨⟨head, openAt, args⟩ :: frames, .start⟩)
      (readArgs text head openAt args rounds (width done))

/-- A mark takes one byte. -/
theorem width_mark (done : List Char) {c : Char} (h : c.utf8Size = 1) :
    width done + 1 = width (done ++ [c]) := by
  simp [h]

/-- Behind a path there is a bracket, and arguments are in it or it is closed at once. -/
theorem reads_bracket {rounds : Nat} (hargs : ArgsRead text rounds) {path : List Char} {head : Path}
    (hpath : PathText path head) (htext : text.toList = done ++ ['['] ++ rest)
    (hrounds : rest.length + 3 ≤ rounds) :
    Reads text done (['['] ++ rest) (fun frames => ⟨frames, .path (String.ofList path) false⟩)
      (do
        let first ← skipBlanks text rounds (width done + 1)
        if (← peek text first) = some ']' then return (⟨head, []⟩, first + 1)
        else readArgs text head (width done) [] rounds first) := by
  have hopen := width_mark done (c := '[') rfl
  obtain ⟨blanks, tail, rfl, hblanks, htail, hskip⟩ :=
    skipBlanks_eq htext (Nat.lt_of_lt_of_le (by omega) hrounds)
  have hplace : text.toList = done ++ (['['] ++ blanks) ++ tail := by
    simpa [List.append_assoc] using htext
  rw [List.append_assoc] at hskip
  rw [hopen, hskip]
  simp only [bind, Except.bind, pure, Except.pure, peek_eq hplace]
  have hrun : ∀ frames, Scan.run text (width done) ⟨frames, .path (String.ofList path) false⟩
      (['['] ++ blanks ++ tail) = Scan.run text (width (done ++ (['['] ++ blanks)))
        ⟨frames, .opened head (width done)⟩ tail := by
    intro frames
    rw [List.append_assoc, List.singleton_append, Scan.run_bracket text hpath,
      Scan.run_blanks_opened text hblanks, ← List.append_assoc, width_append (done ++ ['[']), hopen]
  rw [← List.append_assoc]
  by_cases hclose : tail.head? = some ']'
  · obtain ⟨tail, rfl⟩ := List.head?_eq_some_iff.mp hclose
    rw [if_pos hclose]
    have hpart : ['['] ++ blanks ++ ']' :: tail = ['['] ++ blanks ++ [']'] ++ tail := by simp
    have hstop : width (done ++ (['['] ++ blanks)) + 1 =
        width (done ++ (['['] ++ blanks ++ [']'])) := by
      rw [width_mark _ (c := ']') rfl, List.append_assoc]
    exact .read hpart (by simp) hstop fun frames => hrun frames
  · rw [if_neg hclose]
    have hlength : tail.length + 3 ≤ rounds := by
      rw [List.length_append] at hrounds
      omega
    have hargument : ∀ c ∈ tail.head?, Unicode.isBlank c = false ∧ c ≠ ']' := by
      intro c hc
      refine ⟨htail c hc, ?_⟩
      rintro rfl
      exact hclose hc
    refine Reads.after _ (hargs head (width done) [] hplace hlength) fun frames => ?_
    rw [hrun, Scan.run_argument text hargument]

/-- A type is read if the arguments in its brackets are. -/
theorem TypesRead.succ {rounds : Nat} (hargs : ArgsRead text rounds) :
    TypesRead text (rounds + 1) := by
  intro done rest htext hrounds
  obtain ⟨blanks, tail, rfl, hblanks, htail, hskip⟩ :=
    skipBlanks_eq htext (Nat.lt_of_succ_lt_succ hrounds)
  rw [← List.append_assoc] at htext
  have hlength : tail.length + 2 ≤ rounds + 1 := by
    rw [List.length_append] at hrounds
    omega
  rw [readType, hskip]
  refine Reads.after (fun frames => ⟨frames, .start⟩) ?_ fun frames => by
    rw [Scan.run_blanks text hblanks, width_append]
  simp only [bind, Except.bind]
  rcases readPath_cases htext (Nat.lt_of_succ_lt_succ hlength) htail with
    ⟨path, behind, head, rfl, hpath, hends, hread⟩ | ⟨e, hread, hrefused⟩
  · rw [← List.append_assoc] at htext
    rw [hread]
    simp only [peek_eq htext]
    have hcollect : ∀ frames, Scan.run text (width (done ++ blanks)) ⟨frames, .start⟩
        (path ++ behind) = Scan.run text (width (done ++ blanks ++ path))
          ⟨frames, .path (String.ofList path) false⟩ behind := by
      intro frames
      rw [Scan.run_collect_start text hpath.ne_nil hpath.quotedAfter, width_append _ path]
    by_cases hopen : behind.head? = some '['
    · rw [if_pos hopen]
      obtain ⟨behind, rfl⟩ := List.head?_eq_some_iff.mp hopen
      rw [List.append_cons] at htext
      have hpos := List.length_pos_iff.mpr hpath.ne_nil
      rw [List.length_append, List.length_cons] at hlength
      exact .after _ (reads_bracket hargs hpath htext (by omega)) hcollect
    · rw [if_neg hopen]
      have hfollows : Follows behind := by
        intro c hc
        refine ⟨hends c hc, ?_⟩
        rintro rfl
        exact hopen hc
      refine .read rfl hpath.ne_nil rfl fun frames => ?_
      rw [hcollect, Scan.run_bare text hpath frames _ hfollows]
  · rw [hread]
    exact .refused hrefused

/-- Behind an argument and its blanks there are other arguments, or the bracket is closed. -/
theorem reads_separator {rounds : Nat} (hargs : ArgsRead text rounds) (head : Path) (openAt : Nat)
    (args : List TypeExpr) (type : TypeExpr) (htext : text.toList = done ++ rest)
    (hrounds : rest.length + 2 ≤ rounds) (hrest : ∀ c ∈ rest.head?, Unicode.isBlank c = false) :
    Reads text done rest (fun frames => ⟨⟨head, openAt, args⟩ :: frames, .complete type⟩)
      (do
        match ← peek text (width done) with
        | none => .error (.refused (.unclosedBracket text openAt))
        | some c =>
          if c = ',' then readArgs text head openAt (args ++ [type]) rounds (width done + 1)
          else if c = ']' then return (⟨head, args ++ [type]⟩, width done + 1)
          else .error (.refused (.unexpectedChar text (width done) c))) := by
  simp only [peek_eq htext, bind, Except.bind, pure, Except.pure]
  cases rest with
  | nil => exact .refused fun _ => rfl
  | cons c rest =>
      have hblank := hrest c rfl
      simp only [List.head?_cons]
      rw [List.append_cons] at htext
      rw [List.length_cons] at hrounds
      split
      · next hcomma =>
          subst hcomma
          have hmark := width_mark done (c := ',') rfl
          rw [hmark]
          have hread := hargs head openAt (args ++ [type]) htext (by omega)
          refine Reads.after _ hread fun frames => ?_
          rw [← hmark]
          rfl
      · next hcomma =>
          split
          · next hclose =>
              subst hclose
              exact .read (List.singleton_append).symm (by simp) (width_mark done rfl) fun _ => rfl
          · next hclose =>
              refine .refused fun frames => ?_
              simp [Scan.run, Scan.step, Scan.afterType, hblank, hcomma, hclose]

/-- The arguments that are left are read if the next one is, and the ones behind it. -/
theorem ArgsRead.succ {rounds : Nat} (htypes : TypesRead text rounds)
    (hargs : ArgsRead text rounds) : ArgsRead text (rounds + 1) := by
  intro done rest head openAt args htext hrounds
  have hread := htypes htext (Nat.le_of_succ_le_succ hrounds)
  rw [readArgs]
  generalize readType text rounds (width done) = result at hread ⊢
  cases hread with
  | refused hrefused => exact .refused fun frames => hrefused _
  | @read part behind type stop hrest hne hstop hrun =>
      subst hrest hstop
      rw [← List.append_assoc] at htext
      have hpos := List.length_pos_iff.mpr hne
      rw [List.length_append] at hrounds
      have hbehind : behind.length < rounds := by omega
      obtain ⟨blanks, tail, rfl, hblanks, htail, hskip⟩ := skipBlanks_eq htext hbehind
      rw [← List.append_assoc] at htext
      rw [List.length_append] at hrounds
      simp only [bind, Except.bind, hskip]
      have hseparator := reads_separator hargs head openAt args type htext (by omega) htail
      refine Reads.after _ (Reads.after _ hseparator fun frames => ?_) fun frames => hrun _
      rw [Scan.run_blanks_complete text hblanks, width_append (done ++ part)]

/-- In as many rounds as there are characters, and two more, a type is read from any place on, and
in three more its arguments are. -/
theorem typesRead_and_argsRead (text : String) :
    ∀ rounds, TypesRead text rounds ∧ ArgsRead text rounds
  | 0 =>
    ⟨fun _ hrounds => absurd hrounds (by omega),
      fun _ _ _ _ hrounds => absurd hrounds (by omega)⟩
  | rounds + 1 =>
    have ⟨htypes, hargs⟩ := typesRead_and_argsRead text rounds
    ⟨TypesRead.succ hargs, ArgsRead.succ htypes hargs⟩

/-- The descent comes to what one pass over the text comes to. It never cuts inside a character, and
needs no more rounds than there are characters, and two. -/
theorem parseWithin_eq (text : String) {rounds : Nat} (hrounds : text.length + 2 ≤ rounds) :
    parseWithin rounds text = (parse text).mapError .refused := by
  have hread := (typesRead_and_argsRead text rounds).1 (List.nil_append text.toList).symm
    (by rwa [String.length_toList])
  rw [parseWithin, parse]
  generalize hresult : readType text rounds 0 = result
  rw [width_nil, hresult] at hread
  cases hread with
  | refused hrefused =>
      have hrun := hrefused []
      rw [width_nil] at hrun
      rw [hrun]
      rfl
  | @read part behind type stop hrest hne hstop hread =>
      have hrun := hread []
      rw [width_nil] at hrun
      rw [List.nil_append] at hstop
      subst hstop
      rw [hrun]
      simp only [bind, Except.bind, peek_eq hrest]
      cases behind <;> rfl

end Cursor

/-- **Which texts are types.**  A text is read as a type exactly if the grammar has it for that
type.  Blanks stand in it, outside backticks, only where it goes on, and not in front of an open
bracket.  The descent into brackets ends on every text, in a number of rounds that its length
bounds, and comes to the same. -/
theorem parse_iff_derives :
    (∀ (text : String) (type : TypeExpr), parse text = .ok type ↔ Derives text.toList type) ∧
    (∀ (text : String) (type : TypeExpr) (before after : List Char) (c : Char),
      parse text = .ok type → text.toList = before ++ c :: after → Even (before.count '\x60') →
        Unicode.isBlank c = true → ∃ d, after.head? = some d ∧ d ≠ '[') ∧
    ∀ (text : String) (rounds : Nat), text.length + 2 ≤ rounds →
      Cursor.parseWithin rounds text = (parse text).mapError .refused :=
  ⟨fun _ _ => parse_eq_ok_iff_derives, fun _ _ _ _ _ => exists_behind_blank,
    fun text _ => Cursor.parseWithin_eq text⟩

/-- A text with blanks where they may stand, and a character of two bytes. -/
def spaced : String := " é[\tb ,`[ `[ ] ]"

/-- The type that it is read as. -/
def spacedType : TypeExpr :=
  ⟨⟨[⟨"é"⟩]⟩, [ofPath ⟨[⟨"b"⟩]⟩, ofPath ⟨[⟨"[ "⟩]⟩]⟩

/-- The text is read as the type, in one pass and by descent; a comma is behind its third blank. -/
theorem derives_spaced : Derives spaced.toList spacedType ∧
    (∃ d, ",`[ `[ ] ]".toList.head? = some d ∧ d ≠ '[') ∧
    Cursor.parseWithin 18 spaced = .ok spacedType := by
  obtain ⟨hderives, hblanks, hdescent⟩ := parse_iff_derives
  have hparse : parse spaced = .ok spacedType := rfl
  have hbehind := hblanks spaced spacedType " é[\tb".toList ",`[ `[ ] ]".toList ' ' hparse rfl
    (by decide) (by decide)
  have hwithin := hdescent spaced 18 (by decide)
  rw [hparse] at hwithin
  exact ⟨(hderives spaced spacedType).mp hparse, hbehind, hwithin⟩

end TypeExpr
end DeclGraph
