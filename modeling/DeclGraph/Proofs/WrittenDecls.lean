import DeclGraph.Proofs.JsonReader
import DeclGraph.Proofs.WrittenLines

/-!
# Written declarations told apart

A name may be made of the very characters that are written behind it: the colon in front
of a type, the angle bracket in front of type parameters.  Where a name ends can be seen
nevertheless.  A name between backticks ends with the second one; a bare identifier ends
in front of the first character that no identifier has; and a bare operator takes all
operator characters that follow, of which the last one is the mark if something else than
the end of the header comes next.  Types, lists and literals close themselves.  So what
is written for a declaration is written for no other one, as long as no name in it has a
backtick and no type parameter has the name of an operator: with those,
`class +<<>` would be the class `+` with the parameter `<` and the class `+<<>` as well.

Main results:

- Theorem `TellsApart.row`: what is told apart alone is told apart in a row.
- Theorem `Name.text_append_inj`: where a name ends that is written in front of a mark.
- Theorem `TypeExpr.text_append_inj`: where a type ends.
- Theorem `Text.quoted_append_inj`: where a literal ends.
- Theorem `same_text_iff`: which declarations are written alike.
-/

namespace DeclGraph

/-! ## Texts with something behind them -/

/-- What is written for something good can be told from the text, and so can what is written behind
it, if it is one of the things that may follow. -/
def TellsApart {α : Type} (good : α → Prop) (follows : List Char → Prop)
    (written : α → List Char) : Prop :=
  ∀ ⦃a b : α⦄ ⦃rest rest' : List Char⦄, good a → good b → follows rest → follows rest' →
    written a ++ rest = written b ++ rest' → a = b ∧ rest = rest'

section Rows

variable {α : Type} {good : α → Prop} {mark : Char}

/-- What is told apart alone is told apart in a row, if the row is closed by a mark that nothing in
it begins with. -/
theorem TellsApart.row {follows : List Char → Prop} {written : α → List Char}
    (h : TellsApart good follows written) (hmark : ∀ rest, follows (mark :: rest))
    (hnext : ∀ a rest, good a → follows (written a ++ rest))
    (hbegin : ∀ a rest rest', good a → written a ++ rest ≠ mark :: rest')
    {as bs : List α} (has : ∀ a ∈ as, good a) (hbs : ∀ b ∈ bs, good b) {rest rest' : List Char}
    (hsame : as.flatMap written ++ mark :: rest = bs.flatMap written ++ mark :: rest') :
    as = bs ∧ rest = rest' := by
  have hfollows : ∀ {as : List α}, (∀ a ∈ as, good a) → ∀ rest,
      follows (as.flatMap written ++ mark :: rest) := by
    intro as has rest
    cases as with
    | nil => exact hmark rest
    | cons a as =>
        rw [List.flatMap_cons, List.append_assoc]
        exact hnext a _ (has a List.mem_cons_self)
  induction as generalizing bs with
  | nil =>
      cases bs with
      | nil => exact ⟨rfl, (List.cons.inj hsame).2⟩
      | cons b bs =>
          rw [List.flatMap_cons, List.append_assoc] at hsame
          exact absurd hsame.symm (hbegin b _ _ (hbs b List.mem_cons_self))
  | cons a as ih =>
      obtain ⟨ha, hlater⟩ := List.forall_mem_cons.mp has
      rw [List.flatMap_cons, List.append_assoc] at hsame
      cases bs with
      | nil => exact absurd hsame (hbegin a _ _ ha)
      | cons b bs =>
          obtain ⟨hb, hlater'⟩ := List.forall_mem_cons.mp hbs
          rw [List.flatMap_cons, List.append_assoc] at hsame
          obtain ⟨rfl, hback⟩ := h ha hb (hfollows hlater _) (hfollows hlater' _) hsame
          obtain ⟨rfl, hrest⟩ := ih hlater hlater' hback
          exact ⟨rfl, hrest⟩

/-- In a list with commas, a comma or the closing mark comes behind what is listed. -/
def EndsItem (mark : Char) (rest : List Char) : Prop :=
  rest.head? = some ',' ∨ rest.head? = some mark

/-- A list with commas begins with its first item, and each later one comes behind a comma. -/
theorem toList_commas (written : α → String) (first : α) (later : List α) :
    (", ".intercalate ((first :: later).map written)).toList =
      (written first).toList ++ later.flatMap fun a => ',' :: ' ' :: (written a).toList := by
  induction later generalizing first with
  | nil => simp
  | cons second later ih =>
      rw [List.map_cons, List.map_cons, String.intercalate_cons_cons, ← List.map_cons,
        String.toList_append, String.toList_append, ih]
      simp

/-- Lists with commas are told apart if their items are. -/
theorem TellsApart.listed {written : α → String}
    (h : TellsApart good (EndsItem mark) fun a => (written a).toList) (hmark : mark ≠ ',')
    (hbegin : ∀ a rest rest', good a → (written a).toList ++ rest ≠ mark :: rest')
    {as bs : List α} (has : ∀ a ∈ as, good a) (hbs : ∀ b ∈ bs, good b) {rest rest' : List Char}
    (hsame : (", ".intercalate (as.map written)).toList ++ mark :: rest =
      (", ".intercalate (bs.map written)).toList ++ mark :: rest') : as = bs ∧ rest = rest' := by
  have hitems : TellsApart good (EndsItem mark) fun a => ',' :: ' ' :: (written a).toList :=
    fun a b rest rest' ha hb hrest hrest' hsame =>
      h ha hb hrest hrest' (List.cons.inj (List.cons.inj hsame).2).2
  have hends : ∀ (items : List α) rest, EndsItem mark
      (items.flatMap (fun a => ',' :: ' ' :: (written a).toList) ++ mark :: rest) := by
    intro items rest
    cases items with
    | nil => exact Or.inr rfl
    | cons a items => exact Or.inl rfl
  cases as with
  | nil =>
      cases bs with
      | nil => exact ⟨rfl, (List.cons.inj hsame).2⟩
      | cons b bs =>
          rw [toList_commas, List.append_assoc] at hsame
          exact absurd hsame.symm (hbegin b _ _ (hbs b List.mem_cons_self))
  | cons a as =>
      obtain ⟨ha, hlater⟩ := List.forall_mem_cons.mp has
      rw [toList_commas, List.append_assoc] at hsame
      cases bs with
      | nil => exact absurd hsame (hbegin a _ _ ha)
      | cons b bs =>
          obtain ⟨hb, hlater'⟩ := List.forall_mem_cons.mp hbs
          rw [toList_commas, List.append_assoc] at hsame
          obtain ⟨rfl, hback⟩ := h ha hb (hends as rest) (hends bs rest') hsame
          obtain ⟨rfl, hrest⟩ := hitems.row (fun _ => Or.inr rfl) (fun _ _ _ => Or.inl rfl)
            (fun _ _ _ _ hcomma => hmark (List.cons.inj hcomma).1.symm) hlater hlater' hback
          exact ⟨rfl, hrest⟩

end Rows

/-! ## Names -/

namespace Name

/-- May the character stand in a bare name that is no operator? -/
def isIdentifierChar (c : Char) : Bool :=
  c = '_' || c = '$' || Unicode.isIdentifierStart c || Unicode.isIdentifierContinue c

/-- May the character stand in an operator? -/
def isOperatorChar (c : Char) : Bool :=
  operatorChars.contains c

/-- Is the name an operator that is written bare? -/
def IsBareOperator (name : Name) : Prop :=
  name.needsQuoting = false ∧ isOperatorIdentifier name.raw.toList = true

/-- No character stands both in identifiers and in operators. -/
theorem isIdentifierChar_of_isOperatorChar {c : Char} (h : isOperatorChar c = true) :
    isIdentifierChar c = false := by
  have hnone : operatorChars.any isIdentifierChar = false := by decide +kernel
  rw [← Bool.not_eq_true]
  intro hc
  rw [List.any_eq_true.mpr ⟨c, List.contains_iff_mem.mp h, hc⟩] at hnone
  contradiction

/-- The three ways in which a name is written: between backticks, as a bare identifier, and as a
bare operator. -/
inductive Form (name : Name) : Prop
  | quoted (htext : name.text.toList = '\x60' :: (name.raw.toList ++ ['\x60']))
  | plain (htext : name.text.toList = name.raw.toList) (hne : name.raw.toList ≠ [])
      (hchars : ∀ c ∈ name.raw.toList, isIdentifierChar c = true)
  | operator (htext : name.text.toList = name.raw.toList) (hne : name.raw.toList ≠ [])
      (hchars : ∀ c ∈ name.raw.toList, isOperatorChar c = true) (hoperator : name.IsBareOperator)

theorem form (name : Name) : Form name := by
  cases hquoting : name.needsQuoting with
  | true => exact .quoted (by simp [text_of_needsQuoting hquoting, Name.quoted])
  | false =>
      have htext : name.text.toList = name.raw.toList := by rw [text_of_not_needsQuoting hquoting]
      have hne : name.raw.toList ≠ [] := by
        simpa using (bare_of_not_needsQuoting hquoting).1
      cases hoperator : isOperatorIdentifier name.raw.toList with
      | true =>
          refine .operator htext hne ?_ ⟨hquoting, hoperator⟩
          rw [isOperatorIdentifier, Bool.and_eq_true, List.all_eq_true] at hoperator
          exact hoperator.2
      | false =>
          refine .plain htext hne ?_
          simp only [needsQuoting, hoperator, Bool.or_false, Bool.or_eq_false_iff,
            Bool.not_eq_false'] at hquoting
          obtain ⟨-, hplain⟩ := hquoting
          cases hraw : name.raw.toList with
          | nil => simp
          | cons first rest =>
              rw [hraw] at hplain
              simp only [isPlainIdentifier, Bool.and_eq_true, Bool.or_eq_true, decide_eq_true_eq,
                List.all_eq_true] at hplain
              rw [List.forall_mem_cons]
              constructor
              · rcases hplain.1 with (h | h) | h <;> simp [isIdentifierChar, h]
              · intro c hc
                rcases hplain.2 c hc with h | h <;> simp [isIdentifierChar, h]

/-- Characters that a text begins with and that no other character of their kind follows are told
from what follows. -/
theorem eq_of_run {p : Char → Bool} {a b : Name} (ha : ∀ c ∈ a.raw.toList, p c = true)
    (hb : ∀ c ∈ b.raw.toList, p c = true) {rest rest' : List Char} (hrest : rest.takeWhile p = [])
    (hrest' : rest'.takeWhile p = []) (h : a.raw.toList ++ rest = b.raw.toList ++ rest') :
    a = b ∧ rest = rest' := by
  obtain ⟨hraw, hsame⟩ := append_inj_of_takeWhile ha hb hrest hrest' h
  cases a
  cases b
  exact ⟨congrArg Name.mk (String.toList_inj.mp hraw), hsame⟩

variable {a b : Name}

/-- A bare name does not begin with a backtick, unless there is one in it. -/
theorem raw_ne_tick (ha : a.Unticked) (hne : a.raw.toList ≠ []) (rest rest' : List Char) :
    a.raw.toList ++ rest ≠ '\x60' :: rest' := by
  obtain ⟨first, later, hraw⟩ := List.exists_cons_of_ne_nil hne
  rw [Unticked, hraw, List.mem_cons, not_or] at ha
  rw [hraw, List.cons_append]
  exact fun h => ha.1 (List.cons.inj h).1.symm

/-- A bare identifier does not begin as an operator does. -/
theorem plain_ne_operator (ha : ∀ c ∈ a.raw.toList, isIdentifierChar c = true)
    (hne : a.raw.toList ≠ []) (hb : ∀ c ∈ b.raw.toList, isOperatorChar c = true)
    (hne' : b.raw.toList ≠ []) (rest rest' : List Char) :
    a.raw.toList ++ rest ≠ b.raw.toList ++ rest' := by
  obtain ⟨first, later, hraw⟩ := List.exists_cons_of_ne_nil hne
  obtain ⟨first', later', hraw'⟩ := List.exists_cons_of_ne_nil hne'
  rw [hraw, List.forall_mem_cons] at ha
  rw [hraw', List.forall_mem_cons] at hb
  rw [hraw, hraw', List.cons_append, List.cons_append]
  intro h
  have hfirst := isIdentifierChar_of_isOperatorChar hb.1
  rw [← (List.cons.inj h).1, ha.1] at hfirst
  contradiction

/-- Names in front of something that no identifier goes on with are told apart, unless both are
operators. -/
theorem eq_or_operators (ha : a.Unticked) (hb : b.Unticked) {rest rest' : List Char}
    (hrest : rest.takeWhile isIdentifierChar = []) (hrest' : rest'.takeWhile isIdentifierChar = [])
    (h : a.text.toList ++ rest = b.text.toList ++ rest') :
    (a = b ∧ rest = rest') ∨ (a.IsBareOperator ∧ b.IsBareOperator) := by
  rcases a.form with htext | ⟨htext, hne, hchars⟩ | ⟨htext, hne, hchars, hoperator⟩ <;>
    rcases b.form with htext' | ⟨htext', hne', hchars'⟩ | ⟨htext', hne', hchars', hoperator'⟩ <;>
    rw [htext, htext'] at h
  · left
    have hinside : ∀ {name : Name}, name.Unticked → ∀ c ∈ name.raw.toList, (c != '\x60') = true :=
      fun hname c hc => bne_iff_ne.mpr fun htick => hname (htick ▸ hc)
    rw [List.cons_append, List.cons_append, List.append_assoc, List.append_assoc] at h
    obtain ⟨rfl, hsame⟩ :=
      eq_of_run (hinside ha) (hinside hb) (by simp) (by simp) (List.cons.inj h).2
    exact ⟨rfl, (List.cons.inj hsame).2⟩
  · exact absurd h.symm (raw_ne_tick hb hne' _ _)
  · exact absurd h.symm (raw_ne_tick hb hne' _ _)
  · exact absurd h (raw_ne_tick ha hne _ _)
  · exact Or.inl (eq_of_run hchars hchars' hrest hrest' h)
  · exact absurd h (plain_ne_operator hchars hne hchars' hne' _ _)
  · exact absurd h (raw_ne_tick ha hne _ _)
  · exact absurd h.symm (plain_ne_operator hchars' hne' hchars hne _ _)
  · exact Or.inr ⟨hoperator, hoperator'⟩

/-- Names in front of operator characters and of something else are told apart, given the operator
characters that are not theirs.  Whether or not these are the same, what comes behind them is. -/
theorem text_append_inj (ha : a.Unticked) (hb : b.Unticked) {marks marks' rest rest' : List Char}
    (hmarks : ∀ c ∈ marks, isOperatorChar c = true)
    (hmarks' : ∀ c ∈ marks', isOperatorChar c = true)
    (hrest : rest.takeWhile isOperatorChar = []) (hrest' : rest'.takeWhile isOperatorChar = [])
    (hstop : (marks ++ rest).takeWhile isIdentifierChar = [])
    (hstop' : (marks' ++ rest').takeWhile isIdentifierChar = [])
    (h : a.text.toList ++ (marks ++ rest) = b.text.toList ++ (marks' ++ rest')) :
    (marks = marks' → a = b) ∧ rest = rest' := by
  rcases eq_or_operators ha hb hstop hstop' h with ⟨rfl, hsame⟩ | ⟨hoperator, hoperator'⟩
  · exact ⟨fun _ => rfl, (append_inj_of_takeWhile hmarks hmarks' hrest hrest' hsame).2⟩
  · -- The operator and the marks behind it are one run of operator characters.
    have hrun : ∀ {name : Name} {marks : List Char}, name.IsBareOperator →
        (∀ c ∈ marks, isOperatorChar c = true) →
        ∀ c ∈ name.raw.toList ++ marks, isOperatorChar c = true := by
      intro name marks hname hmarks
      have hchars := hname.2
      rw [isOperatorIdentifier, Bool.and_eq_true, List.all_eq_true] at hchars
      exact List.forall_mem_append.mpr ⟨hchars.2, hmarks⟩
    rw [text_of_not_needsQuoting hoperator.1, text_of_not_needsQuoting hoperator'.1,
      ← List.append_assoc, ← List.append_assoc] at h
    obtain ⟨hfront, hback⟩ := append_inj_of_takeWhile (hrun hoperator hmarks)
      (hrun hoperator' hmarks') hrest hrest' h
    refine ⟨?_, hback⟩
    rintro rfl
    cases a
    cases b
    exact congrArg Name.mk (String.toList_inj.mp (List.append_cancel_right hfront))

/-- Names in front of a colon and a space are told apart. -/
theorem text_append_inj_of_colon (ha : a.Unticked) (hb : b.Unticked) {rest rest' : List Char}
    (h : a.text.toList ++ ([':'] ++ ' ' :: rest) = b.text.toList ++ ([':'] ++ ' ' :: rest')) :
    a = b ∧ rest = rest' := by
  have hcolon : ∀ c ∈ [':'], isOperatorChar c = true := List.forall_mem_singleton.mpr (by decide)
  have hspace : ∀ rest, (' ' :: rest).takeWhile isOperatorChar = [] :=
    fun _ => List.takeWhile_cons_of_neg (by decide)
  have hstop : ∀ rest, (':' :: rest).takeWhile isIdentifierChar = [] :=
    fun _ => List.takeWhile_cons_of_neg (by decide +kernel)
  obtain ⟨hname, hback⟩ := text_append_inj ha hb hcolon hcolon (hspace _) (hspace _) (hstop _)
    (hstop _) h
  exact ⟨hname rfl, (List.cons.inj hback).2⟩

/-- A written name begins with a backtick, with a character of an identifier, or, if it is a bare
operator, with a character of an operator. -/
theorem exists_begin (name : Name) : ∃ c chars, name.text.toList = c :: chars ∧
    (c = '\x60' ∨ isIdentifierChar c = true ∨ isOperatorChar c = true ∧ name.IsBareOperator) := by
  rcases name.form with htext | ⟨htext, hne, hchars⟩ | ⟨htext, hne, hchars, hoperator⟩
  · exact ⟨_, _, htext, Or.inl rfl⟩
  · obtain ⟨first, rest, hraw⟩ := List.exists_cons_of_ne_nil hne
    rw [hraw] at htext hchars
    exact ⟨first, rest, htext, Or.inr (Or.inl (hchars first List.mem_cons_self))⟩
  · obtain ⟨first, rest, hraw⟩ := List.exists_cons_of_ne_nil hne
    rw [hraw] at htext hchars
    exact ⟨first, rest, htext, Or.inr (Or.inr ⟨hchars first List.mem_cons_self, hoperator⟩)⟩

end Name

/-! ## Types -/

/-- Types are told apart whatever is written behind them. -/
theorem TypeExpr.text_append_inj {a b : TypeExpr} (ha : a.Unticked) (hb : b.Unticked)
    {rest rest' : List Char} (h : a.text.toList ++ rest = b.text.toList ++ rest') :
    a = b ∧ rest = rest' := by
  -- Nothing that goes on behind a type is a type.
  have hwhole : ∀ {a b : TypeExpr} {more : List Char}, a.Unticked → b.Unticked →
      b.text.toList = a.text.toList ++ more → a = b ∧ more = [] := by
    intro a b more ha hb hsame
    have hread := parse_text hb
    obtain ⟨later, hrun⟩ := Scan.run_type b.text ha [] 0 more
    rw [parse, hsame, hrun] at hread
    cases more with
    | nil => exact ⟨Except.ok.inj hread, rfl⟩
    | cons c more => contradiction
  rcases List.append_eq_append_iff.mp h with ⟨more, htext, hrest⟩ | ⟨more, htext, hrest⟩
  · obtain ⟨rfl, rfl⟩ := hwhole ha hb htext
    exact ⟨rfl, hrest⟩
  · obtain ⟨rfl, rfl⟩ := hwhole hb ha htext
    exact ⟨rfl, hrest.symm⟩

/-! ## Literals -/

namespace Text

/-- The characters that are written as a backslash and one mark. -/
def shortEscapes : List (Char × Char) :=
  [('\x00', '0'), ('\t', 't'), ('\n', 'n'), ('\r', 'r'), ('\x22', '\x22'), ('\\', '\\')]

/-- The three ways in which a character is written in a literal. -/
inductive Escaped (c : Char) : List Char → Prop
  | short {mark : Char} (h : (c, mark) ∈ shortEscapes) : Escaped c ['\\', mark]
  | code : Escaped c (codePointEscape c)
  | plain (hback : c ≠ '\\') (hquote : c ≠ '\x22') : Escaped c [c]

theorem escaped_escape (c : Char) : Escaped c (escape c) := by
  unfold escape
  split_ifs with hzero htab hfeed hreturn hquote hback hcode
  · exact .short (by simp [shortEscapes, hzero])
  · exact .short (by simp [shortEscapes, htab])
  · exact .short (by simp [shortEscapes, hfeed])
  · exact .short (by simp [shortEscapes, hreturn])
  · exact .short (by simp [shortEscapes, hquote])
  · exact .short (by simp [shortEscapes, hback])
  · exact .code
  · exact .plain hback hquote

/-- The hexadecimal digits of a number are read as the number. -/
theorem foldl_toDigits (n : Nat) :
    (Nat.toDigits 16 n).foldl (fun n c => 16 * n + Json.hexDigit c) 0 = n := by
  induction n using Nat.strongRecOn with
  | ind n ih =>
      by_cases hlt : n < 16
      · simp [Nat.toDigits_of_lt_base hlt, Json.hexDigit_digitChar hlt]
      · rw [Nat.toDigits_of_base_le (by decide) (by omega), List.foldl_append, ih _ (by omega)]
        simp only [List.foldl_cons, List.foldl_nil,
          Json.hexDigit_digitChar (Nat.mod_lt n (by decide))]
        omega

/-- A character is told by its code point in hexadecimal digits, which a bracket closes. -/
theorem codePoint_append_inj {c d : Char} {rest rest' : List Char}
    (h : Nat.toDigits 16 c.toNat ++ '\x7d' :: rest = Nat.toDigits 16 d.toNat ++ '\x7d' :: rest') :
    c = d ∧ rest = rest' := by
  have hdigits : ∀ n, ∀ c ∈ Nat.toDigits 16 n, (c != '\x7d') = true := by
    intro n c hc
    rw [bne_iff_ne]
    rintro rfl
    exact not_mem_toDigits (fun d => (Nat.digitChar_ne '\x7d' rfl).symm) n hc
  obtain ⟨hsame, hback⟩ := append_inj_of_takeWhile (hdigits _) (hdigits _) (by simp) (by simp) h
  have hcode := congrArg (List.foldl (fun n c => 16 * n + Json.hexDigit c) 0) hsame
  rw [foldl_toDigits, foldl_toDigits, Char.toNat_inj] at hcode
  exact ⟨hcode, (List.cons.inj hback).2⟩

/-- Escaped characters are told apart whatever is written behind them. -/
theorem escape_append_inj {c d : Char} {rest rest' : List Char}
    (h : escape c ++ rest = escape d ++ rest') : c = d ∧ rest = rest' := by
  have hmarks : ∀ p ∈ shortEscapes, ∀ q ∈ shortEscapes, p.2 = q.2 → p.1 = q.1 := by decide
  have hcode : ∀ p ∈ shortEscapes, p.2 ≠ 'u' := by decide
  have hc := escaped_escape c
  have hd := escaped_escape d
  generalize escape c = written at h hc
  generalize escape d = written' at h hd
  cases hc with
  | short hshort =>
      cases hd with
      | short hshort' =>
          obtain ⟨hmark, hrest⟩ := List.cons.inj (List.cons.inj h).2
          exact ⟨hmarks _ hshort _ hshort' hmark, hrest⟩
      | code => exact absurd (List.cons.inj (List.cons.inj h).2).1 (hcode _ hshort)
      | plain hback => exact absurd (List.cons.inj h).1.symm hback
  | code =>
      cases hd with
      | short hshort' => exact absurd (List.cons.inj (List.cons.inj h).2).1.symm (hcode _ hshort')
      | code =>
          simp only [codePointEscape, List.append_assoc, List.cons_append, List.nil_append,
            List.cons.injEq, true_and] at h
          exact codePoint_append_inj h
      | plain hback => exact absurd (List.cons.inj h).1.symm hback
  | plain hback =>
      cases hd with
      | short => exact absurd (List.cons.inj h).1 hback
      | code => exact absurd (List.cons.inj h).1 hback
      | plain => exact List.cons.inj h

/-- No escaped character begins with a quotation mark. -/
theorem escape_ne_quote (c : Char) (rest rest' : List Char) :
    escape c ++ rest ≠ '\x22' :: rest' := by
  have hc := escaped_escape c
  generalize escape c = written at hc
  cases hc with
  | short => exact fun h => absurd (List.cons.inj h).1 (by decide)
  | code => exact fun h => absurd (List.cons.inj h).1 (by decide)
  | plain _ hquote => exact fun h => hquote (List.cons.inj h).1

/-- Literals are told apart whatever is written behind them. -/
theorem quoted_append_inj {a b : String} {rest rest' : List Char}
    (h : (quoted a).toList ++ rest = (quoted b).toList ++ rest') : a = b ∧ rest = rest' := by
  have hescape : TellsApart (fun _ => True) (fun _ => True) escape :=
    fun _ _ _ _ _ _ _ _ hsame => escape_append_inj hsame
  simp only [toList_quoted, List.cons_append, List.append_assoc, List.nil_append,
    List.cons.injEq, true_and] at h
  obtain ⟨hchars, hrest⟩ := hescape.row (fun _ => trivial) (fun _ _ _ => trivial)
    (fun c rest rest' _ => escape_ne_quote c rest rest') (fun _ _ => trivial) (fun _ _ => trivial) h
  exact ⟨String.toList_inj.mp hchars, hrest⟩

end Text

/-! ## Type parameters and parameters -/

/-- What comes behind an item in a list with commas begins with no character of a kind that neither
the comma nor the closing mark is of. -/
theorem EndsItem.takeWhile {mark : Char} {rest : List Char} (h : EndsItem mark rest)
    {p : Char → Bool} (hcomma : p ',' = false) (hmark : p mark = false) :
    rest.takeWhile p = [] := by
  rcases h with h | h <;> obtain ⟨more, rfl⟩ := List.head?_eq_some_iff.mp h <;>
    exact List.takeWhile_cons_of_neg (by simp [hcomma, hmark])

/-- No space comes behind an item. -/
theorem EndsItem.ne_space {mark : Char} {rest : List Char} (h : EndsItem mark rest)
    (hmark : mark ≠ ' ') (more : List Char) : rest ≠ ' ' :: more := by
  rintro rfl
  rcases h with h | h
  · exact absurd (Option.some.inj h) (by decide)
  · exact hmark (Option.some.inj h).symm

/-- A type parameter without backticks that does not have the name of an operator. -/
structure TypeParam.Legible (tparam : TypeParam) : Prop where
  name : tparam.name.Unticked
  not_operator : Name.isOperatorIdentifier tparam.name.raw.toList = false
  bound : ∀ type ∈ tparam.bound, type.Unticked

instance (tparam : TypeParam) : Decidable tparam.Legible :=
  decidable_of_iff (tparam.name.Unticked ∧
      Name.isOperatorIdentifier tparam.name.raw.toList = false ∧
      ∀ type ∈ tparam.bound, type.Unticked)
    ⟨fun h => ⟨h.1, h.2.1, h.2.2⟩, fun h => ⟨h.name, h.not_operator, h.bound⟩⟩

namespace TypeParam

/-- What is written behind the name of a type parameter. -/
def boundText (tparam : TypeParam) : List Char :=
  match tparam.bound with
  | none => []
  | some bound => " <: ".toList ++ bound.text.toList

theorem toList_text (tparam : TypeParam) :
    tparam.text.toList = tparam.name.text.toList ++ tparam.boundText := by
  cases hbound : tparam.bound <;> simp [text, boundText, hbound]

/-- Type parameters are told apart within their list. -/
theorem tellsApart_text : TellsApart Legible (EndsItem '>') fun tparam => tparam.text.toList := by
  intro a b rest rest' ha hb hrest hrest' hsame
  have hstop : ∀ (tparam : TypeParam) {rest}, EndsItem '>' rest →
      (tparam.boundText ++ rest).takeWhile Name.isIdentifierChar = [] := by
    intro tparam rest hrest
    cases hbound : tparam.bound with
    | none =>
        simpa [boundText, hbound] using hrest.takeWhile (by decide +kernel) (by decide +kernel)
    | some bound =>
        have hspace : Name.isIdentifierChar ' ' = false := by decide +kernel
        simp [boundText, hbound, hspace]
  simp only [toList_text, List.append_assoc] at hsame
  rcases Name.eq_or_operators ha.name hb.name (hstop a hrest) (hstop b hrest') hsame with
    ⟨hname, hback⟩ | ⟨hoperator, -⟩
  · have hbounds : a.bound = b.bound ∧ rest = rest' := by
      cases hbound : a.bound with
      | none =>
          cases hbound' : b.bound with
          | none => simpa [boundText, hbound, hbound'] using hback
          | some bound' =>
              simp only [boundText, hbound, hbound'] at hback
              exact absurd hback (hrest.ne_space (by decide) _)
      | some bound =>
          cases hbound' : b.bound with
          | none =>
              simp only [boundText, hbound, hbound'] at hback
              exact absurd hback.symm (hrest'.ne_space (by decide) _)
          | some bound' =>
              simp only [boundText, hbound, hbound', List.append_assoc] at hback
              obtain ⟨rfl, hend⟩ := TypeExpr.text_append_inj (ha.bound bound hbound)
                (hb.bound bound' hbound') (List.append_cancel_left hback)
              exact ⟨rfl, hend⟩
    cases a
    cases b
    exact ⟨congrArg₂ TypeParam.mk hname hbounds.1, hbounds.2⟩
  · have hnot := ha.not_operator
    rw [hoperator.2] at hnot
    contradiction

/-- A type parameter begins neither with an operator character nor with a parenthesis. -/
theorem exists_begin {tparam : TypeParam} (h : tparam.Legible) : ∃ c chars,
    tparam.text.toList = c :: chars ∧ Name.isOperatorChar c = false ∧ c ≠ '(' := by
  obtain ⟨c, chars, htext, hkind⟩ := tparam.name.exists_begin
  refine ⟨c, chars ++ tparam.boundText, by rw [toList_text, htext, List.cons_append], ?_⟩
  rcases hkind with rfl | hidentifier | ⟨-, hoperator⟩
  · decide
  · constructor
    · rw [← Bool.not_eq_true]
      intro hc
      rw [Name.isIdentifierChar_of_isOperatorChar hc] at hidentifier
      contradiction
    · rintro rfl
      exact absurd hidentifier (by decide +kernel)
  · have hnot := h.not_operator
    rw [hoperator.2] at hnot
    contradiction

end TypeParam

/-- A parameter without backticks. -/
structure Param.Legible (param : Param) : Prop where
  name : param.name.Unticked
  type : param.type.Unticked

instance (param : Param) : Decidable param.Legible :=
  decidable_of_iff (param.name.Unticked ∧ param.type.Unticked)
    ⟨fun h => ⟨h.1, h.2⟩, fun h => ⟨h.name, h.type⟩⟩

namespace Param

/-- What is written behind the type of a parameter. -/
def defaultText (param : Param) : List Char :=
  if param.optional then " = _".toList else []

theorem toList_text (param : Param) : param.text.toList =
    param.name.text.toList ++ ([':'] ++ ' ' :: (param.type.text.toList ++ param.defaultText)) := by
  cases hoptional : param.optional <;> simp [text, defaultText, hoptional]

/-- Parameters are told apart within their list. -/
theorem tellsApart_text : TellsApart Legible (EndsItem ')') fun param => param.text.toList := by
  intro a b rest rest' ha hb hrest hrest' hsame
  simp only [toList_text, List.append_assoc, List.cons_append] at hsame
  obtain ⟨hname, hback⟩ := Name.text_append_inj_of_colon ha.name hb.name hsame
  obtain ⟨htype, hdefault⟩ := TypeExpr.text_append_inj ha.type hb.type hback
  have hoptional : a.optional = b.optional ∧ rest = rest' := by
    cases hoptional : a.optional <;> cases hoptional' : b.optional <;>
      simp only [defaultText, hoptional, hoptional'] at hdefault
    · exact ⟨rfl, hdefault⟩
    · exact absurd hdefault (hrest.ne_space (by decide) _)
    · exact absurd hdefault.symm (hrest'.ne_space (by decide) _)
    · exact ⟨rfl, List.append_cancel_left hdefault⟩
  cases a
  cases b
  obtain rfl := hname
  obtain rfl := htype
  obtain ⟨rfl, hend⟩ := hoptional
  exact ⟨rfl, hend⟩

/-- A parameter does not begin with a parenthesis. -/
theorem text_ne_close (param : Param) (rest rest' : List Char) :
    param.text.toList ++ rest ≠ ')' :: rest' := by
  obtain ⟨c, chars, htext, hkind⟩ := param.name.exists_begin
  rw [toList_text, htext, List.cons_append, List.cons_append]
  intro h
  obtain rfl := (List.cons.inj h).1
  exact absurd hkind (by
    simp only [not_or, not_and]
    exact ⟨by decide, by decide +kernel, fun hoperator => absurd hoperator (by decide)⟩)

end Param

/-! ## Headers -/

/-- Behind a name with its type parameters there is nothing, or the list of parameters begins. -/
def EndsHeader (rest : List Char) : Prop :=
  rest = [] ∨ rest.head? = some '('

theorem EndsHeader.takeWhile {rest : List Char} (h : EndsHeader rest) {p : Char → Bool}
    (hparen : p '(' = false) : rest.takeWhile p = [] := by
  rcases h with rfl | h
  · rfl
  · obtain ⟨more, rfl⟩ := List.head?_eq_some_iff.mp h
    exact List.takeWhile_cons_of_neg (by simp [hparen])

namespace TypeParam

/-- The mark that opens a list of type parameters, if there are any. -/
def openMark (tparams : List TypeParam) : List Char :=
  if tparams.isEmpty then [] else ['<']

/-- What is written behind the opening mark, up to the end of the line. -/
def afterMark (tparams : List TypeParam) (rest : List Char) : List Char :=
  if tparams.isEmpty then rest else (", ".intercalate (tparams.map text)).toList ++ '>' :: rest

theorem toList_listText (tparams : List TypeParam) (rest : List Char) :
    (listText tparams).toList ++ rest = openMark tparams ++ afterMark tparams rest := by
  cases tparams <;> simp [listText, openMark, afterMark]

theorem isOperatorChar_of_mem_openMark (tparams : List TypeParam) :
    ∀ c ∈ openMark tparams, Name.isOperatorChar c = true := by
  unfold openMark
  split
  · exact List.forall_mem_nil _
  · exact List.forall_mem_singleton.mpr (by decide)

variable {as bs : List TypeParam} {rest rest' : List Char}

/-- Behind the opening mark the first type parameter begins, so no operator goes on there. -/
theorem takeWhile_afterMark (has : ∀ tparam ∈ as, tparam.Legible) (hrest : EndsHeader rest) :
    (afterMark as rest).takeWhile Name.isOperatorChar = [] := by
  cases as with
  | nil => exact hrest.takeWhile (by decide)
  | cons first later =>
      obtain ⟨c, chars, htext, hc, -⟩ := exists_begin (has first List.mem_cons_self)
      rw [afterMark, List.isEmpty_cons, if_neg Bool.false_ne_true, toList_commas, htext]
      exact List.takeWhile_cons_of_neg (by simp [hc])

/-- No identifier goes on where the opening mark is or would be. -/
theorem takeWhile_openMark (as : List TypeParam) (hrest : EndsHeader rest) :
    (openMark as ++ afterMark as rest).takeWhile Name.isIdentifierChar = [] := by
  cases as with
  | nil => exact hrest.takeWhile (by decide +kernel)
  | cons first later =>
      have hangle : Name.isIdentifierChar '<' = false := by decide +kernel
      exact List.takeWhile_cons_of_neg (by simp [hangle])

/-- Where type parameters begin, no header ends. -/
theorem not_endsHeader_afterMark {first : TypeParam} (h : first.Legible) (later : List TypeParam)
    (rest : List Char) : ¬ EndsHeader (afterMark (first :: later) rest) := by
  obtain ⟨c, chars, htext, -, hc⟩ := exists_begin h
  rw [afterMark, List.isEmpty_cons, if_neg Bool.false_ne_true, toList_commas, htext]
  rintro (hnil | hhead)
  · contradiction
  · exact hc (Option.some.inj hhead)

/-- Lists of type parameters are told apart in headers. -/
theorem afterMark_inj (has : ∀ tparam ∈ as, tparam.Legible) (hbs : ∀ tparam ∈ bs, tparam.Legible)
    (hrest : EndsHeader rest) (hrest' : EndsHeader rest')
    (h : afterMark as rest = afterMark bs rest') : as = bs ∧ rest = rest' := by
  have hbegin : ∀ (tparam : TypeParam) rest rest', tparam.Legible →
      tparam.text.toList ++ rest ≠ '>' :: rest' := by
    intro tparam rest rest' htparam
    obtain ⟨c, chars, htext, hc, -⟩ := exists_begin htparam
    rw [htext, List.cons_append]
    intro hsame
    rw [(List.cons.inj hsame).1] at hc
    exact absurd hc (by decide)
  cases as with
  | nil =>
      cases bs with
      | nil => exact ⟨rfl, h⟩
      | cons first' later' =>
          have hnot := not_endsHeader_afterMark (hbs first' List.mem_cons_self) later' rest'
          rw [← h] at hnot
          exact absurd hrest hnot
  | cons first later =>
      cases bs with
      | nil =>
          have hnot := not_endsHeader_afterMark (has first List.mem_cons_self) later rest
          rw [h] at hnot
          exact absurd hrest' hnot
      | cons first' later' => exact tellsApart_text.listed (by decide) hbegin has hbs h

end TypeParam

/-- Names with type parameters behind them are told apart in headers. -/
theorem header_append_inj {a b : Name} {as bs : List TypeParam} (ha : a.Unticked) (hb : b.Unticked)
    (has : ∀ tparam ∈ as, tparam.Legible) (hbs : ∀ tparam ∈ bs, tparam.Legible)
    {rest rest' : List Char} (hrest : EndsHeader rest) (hrest' : EndsHeader rest')
    (h : a.text.toList ++ ((TypeParam.listText as).toList ++ rest) =
      b.text.toList ++ ((TypeParam.listText bs).toList ++ rest')) :
    a = b ∧ as = bs ∧ rest = rest' := by
  rw [TypeParam.toList_listText, TypeParam.toList_listText] at h
  obtain ⟨hname, hback⟩ := Name.text_append_inj ha hb
    (TypeParam.isOperatorChar_of_mem_openMark as) (TypeParam.isOperatorChar_of_mem_openMark bs)
    (TypeParam.takeWhile_afterMark has hrest) (TypeParam.takeWhile_afterMark hbs hrest')
    (TypeParam.takeWhile_openMark as hrest) (TypeParam.takeWhile_openMark bs hrest') h
  obtain ⟨rfl, hend⟩ := TypeParam.afterMark_inj has hbs hrest hrest' hback
  exact ⟨hname rfl, rfl, hend⟩

/-! ## Declarations -/

/-- A method in which no name has a backtick and no type parameter has the name of an operator. -/
structure MethodDecl.Legible (method : MethodDecl) : Prop where
  name : method.name.Unticked
  tparams : ∀ tparam ∈ method.tparams, tparam.Legible
  params : ∀ param ∈ method.params, param.Legible
  result : method.result.Unticked

instance (method : MethodDecl) : Decidable method.Legible :=
  decidable_of_iff (method.name.Unticked ∧ (∀ tparam ∈ method.tparams, tparam.Legible) ∧
      (∀ param ∈ method.params, param.Legible) ∧ method.result.Unticked)
    ⟨fun h => ⟨h.1, h.2.1, h.2.2.1, h.2.2.2⟩,
      fun h => ⟨h.name, h.tparams, h.params, h.result⟩⟩

/-- A class in whose header no name has a backtick and no type parameter has the name of an
operator. -/
structure ClassDecl.Legible (klass : ClassDecl) : Prop where
  name : klass.name.Unticked
  tparams : ∀ tparam ∈ klass.tparams, tparam.Legible

instance (klass : ClassDecl) : Decidable klass.Legible :=
  decidable_of_iff (klass.name.Unticked ∧ ∀ tparam ∈ klass.tparams, tparam.Legible)
    ⟨fun h => ⟨h.1, h.2⟩, fun h => ⟨h.name, h.tparams⟩⟩

/-- A field in which no name has a backtick. -/
structure FieldDecl.Legible (field : FieldDecl) : Prop where
  name : field.name.Unticked
  type : field.type.Unticked

instance (field : FieldDecl) : Decidable field.Legible :=
  decidable_of_iff (field.name.Unticked ∧ field.type.Unticked)
    ⟨fun h => ⟨h.1, h.2⟩, fun h => ⟨h.name, h.type⟩⟩

namespace MethodDecl

/-- The annotation that marks the bracket access. -/
def bracketText (method : MethodDecl) : List Char :=
  if method.bracket then "@JSBracketAccess ".toList else []

theorem toList_text (method : MethodDecl) : method.text.toList =
    method.nativeNameText.toList ++ (method.bracketText ++ ("def ".toList ++
      (method.name.text.toList ++ ((TypeParam.listText method.tparams).toList ++
        '(' :: ((", ".intercalate (method.params.map Param.text)).toList ++
          ')' :: ':' :: ' ' :: method.result.text.toList))))) := by
  cases hbracket : method.bracket <;> simp [text, bracketText, hbracket]

/-- Whether there is an access annotation is told in front of a definition. -/
theorem bracketText_append_inj {m n : MethodDecl} {rest rest' : List Char}
    (h : m.bracketText ++ ("def ".toList ++ rest) = n.bracketText ++ ("def ".toList ++ rest')) :
    m.bracket = n.bracket ∧ rest = rest' := by
  unfold bracketText at h
  cases hm : m.bracket <;> cases hn : n.bracket <;> rw [hm, hn] at h
  · exact ⟨rfl, List.append_cancel_left h⟩
  · exact absurd (List.cons.inj h).1 (by decide)
  · exact absurd (List.cons.inj h).1 (by decide)
  · exact ⟨rfl, List.append_cancel_left (List.append_cancel_left h)⟩

/-- The annotation of a native name is none of an access, and no definition. -/
theorem native_ne_bracketText (method : MethodDecl) (more rest : List Char) :
    "@JSName(".toList ++ more ≠ method.bracketText ++ ("def ".toList ++ rest) := by
  intro h
  unfold bracketText at h
  cases hbracket : method.bracket <;> rw [hbracket] at h
  · exact absurd (List.cons.inj h).1 (by decide)
  · have hfourth : some 'N' = some 'B' := congrArg (fun chars => chars[3]?) h
    contradiction

/-- The annotations of a method are told apart in front of its definition. -/
theorem annotations_append_inj {m n : MethodDecl} {rest rest' : List Char}
    (h : m.nativeNameText.toList ++ (m.bracketText ++ ("def ".toList ++ rest)) =
      n.nativeNameText.toList ++ (n.bracketText ++ ("def ".toList ++ rest'))) :
    m.nativeName = n.nativeName ∧ m.bracket = n.bracket ∧ rest = rest' := by
  have hsome : ∀ {method : MethodDecl} {native : String} (rest : List Char),
      method.nativeName = some native → method.nativeNameText.toList ++ rest =
        "@JSName(".toList ++ ((Text.quoted native).toList ++ (") ".toList ++ rest)) := by
    intro method native rest hnative
    simp only [nativeNameText, hnative, String.toList_append, List.append_assoc]
  have hnone : ∀ {method : MethodDecl} (rest : List Char), method.nativeName = none →
      method.nativeNameText.toList ++ rest = rest := by
    intro method rest hnative
    simp only [nativeNameText, hnative]
    rfl
  cases hm : m.nativeName with
  | none =>
      rw [hnone _ hm] at h
      cases hn : n.nativeName with
      | none =>
          rw [hnone _ hn] at h
          exact ⟨rfl, bracketText_append_inj h⟩
      | some native' =>
          rw [hsome _ hn] at h
          exact absurd h.symm (native_ne_bracketText m _ _)
  | some native =>
      rw [hsome _ hm] at h
      cases hn : n.nativeName with
      | none =>
          rw [hnone _ hn] at h
          exact absurd h (native_ne_bracketText n _ _)
      | some native' =>
          rw [hsome _ hn] at h
          obtain ⟨rfl, hback⟩ := Text.quoted_append_inj (List.append_cancel_left h)
          exact ⟨rfl, bracketText_append_inj (List.append_cancel_left hback)⟩

/-- Methods that are written alike are equal. -/
theorem eq_of_text_eq {m n : MethodDecl} (hm : m.Legible) (hn : n.Legible)
    (h : m.text = n.text) : m = n := by
  have hchars := congrArg String.toList h
  rw [toList_text, toList_text] at hchars
  obtain ⟨hnative, hbracket, hheader⟩ := annotations_append_inj hchars
  obtain ⟨hname, htparams, hback⟩ := header_append_inj hm.name hn.name hm.tparams hn.tparams
    (Or.inr rfl) (Or.inr rfl) hheader
  obtain ⟨hparams, hresults⟩ := Param.tellsApart_text.listed (by decide)
    (fun param rest rest' _ => param.text_ne_close rest rest') hm.params hn.params
    (List.cons.inj hback).2
  have hresult : m.result = n.result ∧ ([] : List Char) = [] := by
    apply TypeExpr.text_append_inj hm.result hn.result
    simpa using hresults
  cases m
  cases n
  simp only at hname htparams hparams hresult hnative hbracket
  rw [hname, htparams, hparams, hresult.1, hnative, hbracket]

end MethodDecl

namespace ClassDecl

theorem toList_text (klass : ClassDecl) : klass.text.toList =
    (if klass.isTrait then "trait " else "class ").toList ++
      (klass.name.text.toList ++ ((TypeParam.listText klass.tparams).toList ++ [])) := by
  simp [text]

/-- Classes that are written alike have the same header. -/
theorem header_eq_of_text_eq {k l : ClassDecl} (hk : k.Legible) (hl : l.Legible)
    (h : k.text = l.text) :
    k.isTrait = l.isTrait ∧ k.name = l.name ∧ k.tparams = l.tparams := by
  have hchars := congrArg String.toList h
  rw [toList_text, toList_text] at hchars
  have hword : k.isTrait = l.isTrait := by
    cases hktrait : k.isTrait <;> cases hltrait : l.isTrait <;> rw [hktrait, hltrait] at hchars
    · exact absurd (List.cons.inj hchars).1 (by decide)
    · exact absurd (List.cons.inj hchars).1 (by decide)
  rw [hword] at hchars
  obtain ⟨hname, htparams, -⟩ := header_append_inj hk.name hl.name hk.tparams hl.tparams
    (Or.inl rfl) (Or.inl rfl) (List.append_cancel_left hchars)
  exact ⟨hword, hname, htparams⟩

end ClassDecl

namespace FieldDecl

theorem toList_text (field : FieldDecl) : field.text.toList =
    "var ".toList ++ (field.name.text.toList ++ ([':'] ++ ' ' :: field.type.text.toList)) := by
  simp [text]

/-- Fields that are written alike are equal. -/
theorem eq_of_text_eq {f g : FieldDecl} (hf : f.Legible) (hg : g.Legible)
    (h : f.text = g.text) : f = g := by
  have hchars := congrArg String.toList h
  rw [toList_text, toList_text] at hchars
  obtain ⟨hname, hback⟩ :=
    Name.text_append_inj_of_colon hf.name hg.name (List.append_cancel_left hchars)
  have htype : f.type = g.type ∧ ([] : List Char) = [] := by
    apply TypeExpr.text_append_inj hf.type hg.type
    simpa using hback
  cases f
  cases g
  exact congrArg₂ FieldDecl.mk hname htype.1

end FieldDecl

/-- **What is written for a declaration is written for no other one.**  This holds of methods, of
the headers of classes and of fields in which no name has a backtick and no type parameter has the
name of an operator. -/
theorem same_text_iff :
    (∀ m n : MethodDecl, m.Legible → n.Legible → (m.text = n.text ↔ m = n)) ∧
    (∀ k l : ClassDecl, k.Legible → l.Legible → (k.text = l.text ↔
      k.isTrait = l.isTrait ∧ k.name = l.name ∧ k.tparams = l.tparams)) ∧
    ∀ f g : FieldDecl, f.Legible → g.Legible → (f.text = g.text ↔ f = g) := by
  refine ⟨?_, ?_, ?_⟩
  · intro m n hm hn
    exact ⟨MethodDecl.eq_of_text_eq hm hn, congrArg MethodDecl.text⟩
  · intro k l hk hl
    refine ⟨ClassDecl.header_eq_of_text_eq hk hl, ?_⟩
    rintro ⟨htrait, hname, htparams⟩
    rw [ClassDecl.text, ClassDecl.text, htrait, hname, htparams]
  · intro f g hf hg
    exact ⟨FieldDecl.eq_of_text_eq hf hg, congrArg FieldDecl.text⟩

/-- An operator with a type parameter that has a bound, and with parameters of which one is named by
an operator that ends with a colon and another one by a list of parameters. -/
def angled : MethodDecl where
  name := ⟨"<"⟩
  tparams := [{ name := ⟨"T"⟩, bound := some TypeExpr.crowded }]
  params := [{ name := ⟨"::"⟩, optional := true }, { name := ⟨"a: b, c"⟩ }]
  nativeName := some "\x22) def \\"
  bracket := true

/-- The same method without its type parameter, and with a name that ends with the mark which opens
them. -/
def doublyAngled : MethodDecl :=
  { angled with name := ⟨"<<"⟩, tparams := [] }

/-- Where a name may take the mark behind it for a part of itself, methods, classes and fields are
written differently. -/
theorem same_text_iff_of_operators :
    (angled.Legible ∧ doublyAngled.Legible ∧ angled.text ≠ doublyAngled.text) ∧
    (ClassDecl.Legible { name := ⟨"+"⟩, tparams := angled.tparams } ∧
      ClassDecl.Legible { name := ⟨"+<"⟩ } ∧
      ClassDecl.text { name := ⟨"+"⟩, tparams := angled.tparams } ≠
        ClassDecl.text { name := ⟨"+<"⟩ }) ∧
    FieldDecl.Legible { name := ⟨"::"⟩ } ∧ FieldDecl.Legible { name := ⟨":::"⟩ } ∧
      FieldDecl.text { name := ⟨"::"⟩ } ≠ FieldDecl.text { name := ⟨":::"⟩ } := by
  obtain ⟨hmethods, hclasses, hfields⟩ := same_text_iff
  refine ⟨⟨by decide +kernel, by decide +kernel, ?_⟩, ⟨by decide +kernel, by decide +kernel, ?_⟩,
    by decide +kernel, by decide +kernel, ?_⟩
  · rw [Ne, hmethods _ _ (by decide +kernel) (by decide +kernel)]
    decide +kernel
  · rw [Ne, hclasses _ _ (by decide +kernel) (by decide +kernel)]
    decide +kernel
  · rw [Ne, hfields _ _ (by decide +kernel) (by decide +kernel)]
    decide +kernel

/-- With an operator for a type parameter, the class `+` is written as the class `+<<>`. -/
example : ClassDecl.text { name := ⟨"+"⟩, tparams := [{ name := ⟨"<"⟩ }] } =
    ClassDecl.text { name := ⟨"+<<>"⟩ } := by
  decide +kernel

end DeclGraph
