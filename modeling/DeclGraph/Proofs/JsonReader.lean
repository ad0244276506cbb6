import DeclGraph.Json.Printer
import Mathlib.Tactic.SplitIfs

/-!
# Reading JSON texts

A text that a value was written as is read one character at a time.  The reader keeps
the arrays and objects that are not closed yet, the value that was read last, and where
in a word or string it stands.  It needs no layout: spaces and line ends between words
and marks are passed over.

Main results:

- Theorem `Json.run_lines`: the lines between two brackets are read one by one.
- Theorem `Json.reads_prettyAt`: wherever a value is written, it is read.
- Theorem `Json.read_pretty`: reading inverts printing.
-/

namespace DeclGraph
namespace Json

/-! ## Readers -/

/-- An array or object that is not closed yet, with what was read of it. -/
inductive Frame
  /-- An array with its first elements. -/
  | items (done : List Json)
  /-- An object with its first fields, and the key of the next one if that was read. -/
  | fields (done : List (String × Json)) (key : Option String)

/-- Where a reader stands. -/
inductive Place
  /-- Between words and marks. -/
  | between
  /-- In a word or number. -/
  | word (letters : List Char)
  /-- In a string. -/
  | text (chars : List Char)
  /-- In a string, after a backslash. -/
  | escape (chars : List Char)
  /-- In a string, in the number of a character. -/
  | code (chars digits : List Char)

/-- What a reader knows of the text before it. -/
structure Reader where
  /-- The arrays and objects that are not closed yet, the innermost first. -/
  frames : List Frame := []
  /-- The value that was read last, until it is put where it belongs. -/
  value : Option Json := none
  /-- Where the reader stands. -/
  place : Place := .between

/-- The value that a word or number stands for. -/
def wordValue (letters : List Char) : Option Json :=
  if letters = "null".toList then some null
  else if letters = "true".toList then some (bool true)
  else if letters = "false".toList then some (bool false)
  else if letters.all Char.isDigit then some (number (Nat.ofDigitChars 10 letters 0))
  else none

/-- What a character stands for after a backslash. -/
def unescape (c : Char) : Option Char :=
  if c = '\x22' || c = '\\' || c = '/' then some c
  else if c = 'b' then some '\x08'
  else if c = 't' then some '\t'
  else if c = 'n' then some '\n'
  else if c = 'f' then some '\x0c'
  else if c = 'r' then some '\r'
  else none

/-- The value of a hexadecimal digit. -/
def hexDigit (c : Char) : Nat :=
  if c.isDigit then c.toNat - '0'.toNat else c.toNat - 'a'.toNat + 10

/-- The character with a number that is given in hexadecimal digits. -/
def coded (digits : List Char) : Char :=
  Char.ofNat (digits.foldl (fun n c => 16 * n + hexDigit c) 0)

namespace Reader

/-- Take a value that was read. -/
def take (r : Reader) (value : Json) : Option Reader :=
  match r.value with
  | none => some { frames := r.frames, value := some value }
  | some _ => none

/-- A word ends where something else begins. -/
def settle (r : Reader) : Option Reader :=
  match r.place with
  | .between => some r
  | .word letters => (wordValue letters).bind r.take
  | .text _ | .escape _ | .code _ _ => none

/-- Put the last value where it belongs. -/
def store (r : Reader) : Option Reader :=
  match r.value, r.frames with
  | none, _ => some r
  | some value, .items done :: frames => some { frames := .items (done ++ [value]) :: frames }
  | some value, .fields done (some key) :: frames =>
      some { frames := .fields (done ++ [(key, value)]) none :: frames }
  | some _, _ => none

/-- Take the last value for the key of the next field. -/
def name (r : Reader) : Option Reader :=
  match r.value, r.frames with
  | some (.string key), .fields done none :: frames =>
      some { frames := .fields done (some key) :: frames }
  | _, _ => none

/-- Close the innermost array or object. -/
def close (c : Char) (r : Reader) : Option Reader :=
  match r.frames with
  | .items done :: frames =>
      if c = ']' then some { frames, value := some (.array done) } else none
  | .fields done none :: frames =>
      if c = '\x7d' then some { frames, value := some (.object done) } else none
  | _ => none

/-- Read a character between words and marks. -/
def mark (c : Char) (r : Reader) : Option Reader :=
  if c = ' ' || c = '\n' then some r
  else if c.isAlphanum then some { r with place := .word [c] }
  else if c = '\x22' then some { r with place := .text [] }
  else if c = '[' then some { r with frames := .items [] :: r.frames }
  else if c = '\x7b' then some { r with frames := .fields [] none :: r.frames }
  else if c = ',' then r.store
  else if c = ':' then r.name
  else r.store.bind (close c)

/-- Read a character. -/
def step (r : Reader) (c : Char) : Option Reader :=
  match r.place with
  | .between => r.mark c
  | .word letters =>
      if c.isAlphanum then some { r with place := .word (letters ++ [c]) }
      else r.settle.bind (mark c)
  | .text chars =>
      if c = '\x22' then r.take (.string (String.ofList chars))
      else if c = '\\' then some { r with place := .escape chars }
      else some { r with place := .text (chars ++ [c]) }
  | .escape chars =>
      if c = 'u' then some { r with place := .code chars [] }
      else (unescape c).map fun d => { r with place := .text (chars ++ [d]) }
  | .code chars digits =>
      if digits.length < 3 then some { r with place := .code chars (digits ++ [c]) }
      else some { r with place := .text (chars ++ [coded (digits ++ [c])]) }

/-- Read some characters. -/
def run (text : List Char) (r : Reader) : Option Reader :=
  text.foldlM step r

/-- The value that was read, once nothing is left open. -/
def finish (r : Reader) : Option Json :=
  match r.frames with
  | [] => r.value
  | _ :: _ => none

@[simp]
theorem run_nil (r : Reader) : run [] r = some r :=
  rfl

@[simp]
theorem run_cons (c : Char) (text : List Char) (r : Reader) :
    run (c :: text) r = (r.step c).bind (run text) :=
  List.foldlM_cons

theorem run_append (text text' : List Char) (r : Reader) :
    run (text ++ text') r = (run text r).bind (run text') :=
  List.foldlM_append

end Reader

/-- The value that a text was written for. -/
def read (text : String) : Option Json :=
  ((Reader.run text.toList {}).bind Reader.settle).bind Reader.finish

open Reader

/-! ## Strings, words and spaces -/

/-- The digits of a number below 16 are read as it. -/
theorem hexDigit_digitChar {d : Nat} (h : d < 16) : hexDigit (Nat.digitChar d) = d := by
  revert d
  decide

/-- The number of a control character is read as the character. -/
theorem coded_controlEscape {c : Char} (h : c.toNat < 0x20) :
    coded ['0', '0', Nat.digitChar (c.toNat / 16), Nat.digitChar (c.toNat % 16)] = c := by
  have hhigh := hexDigit_digitChar (d := c.toNat / 16) (by omega)
  have hlow := hexDigit_digitChar (d := c.toNat % 16) (by omega)
  have hzero : hexDigit '0' = 0 := rfl
  simp only [coded, List.foldl_cons, List.foldl_nil, hhigh, hlow, hzero]
  rw [show 16 * (16 * (16 * (16 * 0 + 0) + 0) + c.toNat / 16) + c.toNat % 16 = c.toNat by omega,
    Char.ofNat_toNat]

/-- An escaped character is read as the character. -/
theorem run_escape (c : Char) (frames : List Frame) (value : Option Json) (chars : List Char) :
    run (escape c) { frames, value, place := .text chars } =
      some { frames, value, place := .text (chars ++ [c]) } := by
  unfold escape
  split_ifs with hquote hback hb ht hn hf hr hcontrol
  all_goals try (subst c; rfl)
  · simp [controlEscape, step, coded_controlEscape hcontrol]
  · simp [step, hquote, hback]

theorem run_escaped (text : List Char) (frames : List Frame) (value : Option Json)
    (chars : List Char) :
    run (text.flatMap escape) { frames, value, place := .text chars } =
      some { frames, value, place := .text (chars ++ text) } := by
  induction text generalizing chars with
  | nil => simp
  | cons c rest ih =>
      rw [List.flatMap_cons, run_append, run_escape, Option.bind_some, ih]
      simp

/-- Spaces between words and marks are passed over. -/
theorem run_spaces (n : Nat) {r : Reader} (h : r.place = .between) :
    run (List.replicate n ' ') r = some r := by
  induction n with
  | zero => rfl
  | succ n ih => simp [List.replicate_succ, step, h, mark, ih]

/-- So is the start of a line. -/
theorem run_lineStart (depth : Nat) {r : Reader} (h : r.place = .between) :
    run (lineStart depth).toList r = some r := by
  simp [lineStart, step, h, mark, run_spaces]

/-- Between words and marks a word begins, and it goes on with letters and digits. -/
theorem run_word {letters : List Char} (hne : letters ≠ [])
    (hletters : ∀ c ∈ letters, c.isAlphanum = true) (frames : List Frame) :
    run letters { frames } = some { frames, place := .word letters } := by
  have hrest : ∀ (rest : List Char) (before : List Char), (∀ c ∈ rest, c.isAlphanum = true) →
      run rest { frames, place := .word before } =
        some { frames, place := .word (before ++ rest) } := by
    intro rest
    induction rest with
    | nil => simp
    | cons c rest ih =>
        intro before hrest
        simp [step, hrest c (by simp), ih (before ++ [c]) fun d hd => hrest d (by simp [hd])]
  obtain ⟨c, rest, rfl⟩ := List.exists_cons_of_ne_nil hne
  have hc := hletters c (by simp)
  have hmark : mark c { frames } = some { frames, place := .word [c] } := by
    have hspace : ¬((decide (c = ' ') || decide (c = '\n')) = true) := by
      intro hspace
      rw [Bool.or_eq_true, decide_eq_true_eq, decide_eq_true_eq] at hspace
      rcases hspace with rfl | rfl <;> contradiction
    rw [mark, if_neg hspace, if_pos hc]
  rw [run_cons, step, hmark, Option.bind_some]
  exact hrest rest [c] fun d hd => hletters d (by simp [hd])

/-! ## Written values -/

/-- Where a value is expected, this text is read as it, at the end of the text at the latest. -/
def Reads (text : List Char) (value : Json) : Prop :=
  ∀ frames, (run text { frames }).bind settle = some { frames, value := some value }

/-- A word ends before whatever is not part of it. -/
theorem step_of_settle {r r' : Reader} (h : r.settle = some r') {c : Char}
    (hc : c.isAlphanum = false) : r.step c = r'.mark c := by
  rcases r with ⟨frames, value, place⟩
  cases place with
  | between =>
      obtain rfl := Option.some.inj h
      rfl
  | word letters => simp [step, hc, h]
  | text chars => simp [settle] at h
  | escape chars => simp [settle] at h
  | code chars digits => simp [settle] at h

/-- After a value, a mark is read with the value in hand. -/
theorem Reads.mark {text : List Char} {value : Json} (h : Reads text value) {c : Char}
    (hc : c.isAlphanum = false) (rest : List Char) (frames : List Frame) :
    run (text ++ c :: rest) { frames } =
      (Reader.mark c { frames, value := some value }).bind (run rest) := by
  obtain ⟨r, hr, hsettle⟩ := Option.bind_eq_some_iff.mp (h frames)
  rw [run_append, hr, Option.bind_some, run_cons, step_of_settle hsettle hc]

/-- A quoted string is read as the string. -/
theorem reads_quoted (text : String) : Reads (quoted text).toList (.string text) := by
  intro frames
  have hopen : step { frames } '\x22' = some { frames, place := .text [] } := rfl
  rw [toList_quoted, List.cons_append, run_cons, hopen, Option.bind_some, run_append, run_escaped,
    Option.bind_some, List.nil_append, run_cons]
  simp [step, take, settle]

/-- A word is read as the value that it stands for. -/
theorem reads_word {letters : List Char} {value : Json} (hne : letters ≠ [])
    (hletters : letters.all Char.isAlphanum = true) (hvalue : wordValue letters = some value) :
    Reads letters value := by
  intro frames
  rw [run_word hne (List.all_eq_true.mp hletters), Option.bind_some]
  simp [settle, hvalue, take]

/-- The digits of a number are read as the number. -/
theorem reads_number (n : Nat) : Reads (Nat.repr n).toList (.number n) := by
  rw [Nat.toList_repr]
  have hdigit : ∀ c ∈ Nat.toDigits 10 n, c.isDigit = true := fun c hc =>
    Nat.isDigit_of_mem_toDigits (by decide) (by decide) hc
  refine reads_word Nat.toDigits_ne_nil (List.all_eq_true.mpr fun c hc => ?_) ?_
  · rw [Char.isAlphanum, hdigit c hc, Bool.or_true]
  · -- No word that stands for something else consists of digits.
    have hword : ∀ {word : List Char} {c : Char}, c ∈ word → c.isDigit = false →
        Nat.toDigits 10 n ≠ word := by
      rintro word c hc hnot rfl
      rw [hdigit c hc] at hnot
      contradiction
    rw [wordValue, if_neg (hword (c := 'n') (by decide) (by decide)),
      if_neg (hword (c := 't') (by decide) (by decide)),
      if_neg (hword (c := 'f') (by decide) (by decide)),
      if_pos (List.all_eq_true.mpr hdigit), Nat.ofDigitChars_ten_toDigits]

/-! ## Lines between brackets -/

/-- In one state of the innermost array or object, this line is read and stored, which makes it
another one. -/
def Stores (line : List Char) (frame frame' : Frame) : Prop :=
  ∀ frames, ∃ r : Reader, r.place = .between ∧
    (run line { frames := frame :: frames }).bind settle = some r ∧
    r.store = some { frames := frame' :: frames }

/-- The line of an element is stored at the end of the array. -/
theorem Reads.stores_item {text : List Char} {value : Json} (h : Reads text value)
    (done : List Json) : Stores text (.items done) (.items (done ++ [value])) :=
  fun frames => ⟨_, rfl, h (.items done :: frames), rfl⟩

/-- The line of a field is stored at the end of the object. -/
theorem Reads.stores_field {text : List Char} {value : Json} (h : Reads text value) (key : String)
    (done : List (String × Json)) :
    Stores ((quoted key).toList ++ ':' :: ' ' :: text) (.fields done none)
      (.fields (done ++ [(key, value)]) none) := by
  intro frames
  have hkey := (reads_quoted key).mark (c := ':') rfl (' ' :: text) (.fields done none :: frames)
  have hcolon : Reader.mark ':'
      { frames := .fields done none :: frames, value := some (.string key) } =
      some { frames := .fields done (some key) :: frames } := rfl
  have hspace : step { frames := .fields done (some key) :: frames } ' ' =
      some { frames := .fields done (some key) :: frames } := rfl
  rw [hcolon, Option.bind_some, run_cons, hspace, Option.bind_some] at hkey
  exact ⟨_, rfl, by rw [hkey]; exact h (.fields done (some key) :: frames), rfl⟩

/-- What comes between two lines. -/
def lineBreak (depth : Nat) : List Char :=
  ',' :: (lineStart depth).toList

/-- The lines between two brackets are read one by one, and then the closing one is. -/
theorem run_lines {α : Type} {line : α → List Char} {frame : List α → Frame} {items : List α}
    (hne : items ≠ [])
    (hlines : ∀ item ∈ items, ∀ done, Stores (line item) (frame done) (frame (done ++ [item])))
    (done : List α) (depth : Nat) {closing : Char} (hclosing : closing = ']' ∨ closing = '\x7d')
    (frames : List Frame) :
    run ((lineBreak (depth + 1)).intercalate (items.map line) ++
        ((lineStart depth).toList ++ [closing])) { frames := frame done :: frames } =
      close closing { frames := frame (done ++ items) :: frames } := by
  induction items generalizing done with
  | nil => contradiction
  | cons item rest ih =>
      obtain ⟨r, hplace, hsettle, hstore⟩ := hlines item (by simp) done frames
      obtain ⟨r', hr', hsettle⟩ := Option.bind_eq_some_iff.mp hsettle
      cases rest with
      | nil =>
          have hbreak : r'.step '\n' = some r := step_of_settle hsettle rfl
          have hspaces : run (List.replicate (2 * depth) ' ') r = some r := run_spaces _ hplace
          have hlast : r.step closing = r.store.bind (close closing) := by
            rw [step, hplace]
            rcases hclosing with rfl | rfl <;> rfl
          have hend : run [] = some := rfl
          simp [lineStart, run_append, hr', hbreak, hspaces, hlast, hstore, hend]
      | cons next rest =>
          have hcomma : r'.step ',' = r.store := step_of_settle hsettle rfl
          have hbreak : run (lineBreak (depth + 1)) r' =
              some { frames := frame (done ++ [item]) :: frames } := by
            rw [lineBreak, run_cons, hcomma, hstore, Option.bind_some, run_lineStart _ rfl]
          have hrest := ih (by simp) (fun other hother => hlines other (by simp [hother]))
            (done ++ [item])
          rw [List.append_assoc, List.singleton_append] at hrest
          rw [List.map_cons, List.map_cons, List.intercalate_cons_cons, ← List.map_cons]
          rw [List.append_assoc, List.append_assoc, run_append, hr', Option.bind_some, run_append,
            hbreak, Option.bind_some, hrest]

/-- Lines between brackets are read as what the closing bracket makes of them. -/
theorem run_bracketed {α : Type} {line : α → String} (frame : List α → Frame) {items : List α}
    (hlines : ∀ item ∈ items, ∀ done,
      Stores (line item).toList (frame done) (frame (done ++ [item])))
    (depth : Nat) {first last : String} (opening closing : Char) {frames : List Frame}
    (hfirst : first.toList = [opening]) (hlast : last.toList = [closing])
    (hopening : step { frames } opening = some { frames := frame [] :: frames })
    (hclosing : closing = ']' ∨ closing = '\x7d') :
    run (bracketed depth first (items.map line) last).toList { frames } =
      close closing { frames := frame items :: frames } := by
  have hend : run [] = some := rfl
  by_cases hne : items = []
  · subst hne
    have hclose : step { frames := frame [] :: frames } closing =
        close closing { frames := frame [] :: frames } := by
      rcases hclosing with rfl | rfl <;> rfl
    simp [bracketed, hfirst, hlast, hopening, hclose, hend]
  · have hrest := run_lines hne hlines [] depth hclosing frames
    rw [List.nil_append] at hrest
    have hbreak : run (lineStart (depth + 1)).toList { frames := frame [] :: frames } =
        some { frames := frame [] :: frames } := run_lineStart _ rfl
    rw [← hrest]
    simp [bracketed, hne, hfirst, hlast, String.toList_intercalate, run_append, hopening, hbreak,
      lineBreak, Function.comp_def]

/-! ## Whole values -/

/-- The texts of the fields of an object are a key, a colon and a value each. -/
theorem fieldTexts_eq_map (depth : Nat) (fields : List (String × Json)) :
    fieldTexts depth fields =
      fields.map fun field => quoted field.1 ++ ": " ++ prettyAt depth field.2 := by
  induction fields with
  | nil => rfl
  | cons field rest ih => simp [fieldTexts, ih]

mutual

/-- Wherever a value is written, it is read. -/
theorem reads_prettyAt : ∀ (json : Json) (depth : Nat), Reads (prettyAt depth json).toList json
  | .null, depth => by
      rw [prettyAt]
      exact reads_word (by decide) (by decide) rfl
  | .bool true, depth => by
      rw [prettyAt]
      exact reads_word (by decide) (by decide) rfl
  | .bool false, depth => by
      rw [prettyAt]
      exact reads_word (by decide) (by decide) rfl
  | .number n, depth => by
      rw [prettyAt]
      exact reads_number n
  | .string text, depth => by
      rw [prettyAt]
      exact reads_quoted text
  | .array items, depth => by
      intro frames
      have hlines : ∀ item ∈ items, ∀ done, Stores (prettyAt (depth + 1) item).toList
          (.items done) (.items (done ++ [item])) := fun item hitem =>
        (reads_itemTexts items item hitem (depth + 1)).stores_item
      have hrun : run (bracketed depth "[" (items.map (prettyAt (depth + 1))) "]").toList
          { frames } = some { frames, value := some (.array items) } :=
        run_bracketed .items hlines depth '[' ']' (by decide) (by decide) rfl (.inl rfl)
      rw [prettyAt, itemTexts_eq_map, hrun]
      rfl
  | .object fields, depth => by
      intro frames
      have hlines : ∀ field ∈ fields, ∀ done,
          Stores (quoted field.1 ++ ": " ++ prettyAt (depth + 1) field.2).toList
            (.fields done none) (.fields (done ++ [field]) none) := by
        intro field hfield done
        have hvalue := reads_fieldTexts fields field hfield (depth + 1)
        simpa using hvalue.stores_field field.1 done
      have hrun : run (bracketed depth "\x7b" (fields.map fun field =>
          quoted field.1 ++ ": " ++ prettyAt (depth + 1) field.2) "\x7d").toList
          { frames } = some { frames, value := some (.object fields) } :=
        run_bracketed (.fields · none) hlines depth '\x7b' '\x7d' (by decide) (by decide) rfl
          (.inr rfl)
      rw [prettyAt, fieldTexts_eq_map, hrun]
      rfl

/-- So are the elements of an array. -/
theorem reads_itemTexts : ∀ (items : List Json), ∀ item ∈ items, ∀ depth,
    Reads (prettyAt depth item).toList item
  | item :: rest, other, hother, depth => by
      rcases List.mem_cons.mp hother with hsame | hrest
      · exact hsame ▸ reads_prettyAt item depth
      · exact reads_itemTexts rest other hrest depth

/-- So are the fields of an object. -/
theorem reads_fieldTexts : ∀ (fields : List (String × Json)), ∀ field ∈ fields, ∀ depth,
    Reads (prettyAt depth field.2).toList field.2
  | (key, value) :: rest, other, hother, depth => by
      rcases List.mem_cons.mp hother with hsame | hrest
      · exact hsame ▸ reads_prettyAt value depth
      · exact reads_fieldTexts rest other hrest depth

end

/-- **Reading inverts printing.** -/
theorem read_pretty (json : Json) : read json.pretty = some json := by
  rw [read, pretty, reads_prettyAt json 0 []]
  rfl

end Json
end DeclGraph
