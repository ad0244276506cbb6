import DeclGraph.Proofs.ByteCursor

/-!
# Where texts are refused

A text that is no type is refused at a character, in the text of a path, behind a bracket
that is not closed, or at its end.  Behind an open bracket complete arguments stand, and a
bracket in one of them is closed there.  So the bracket that is told of is the last one that
is not closed.  The places that are told are numbers of bytes, and characters begin there.

Main results:

- Theorem `TypeExpr.Balanced.append` and Theorem `TypeExpr.Balanced.bracket`: texts in which
  every bracket is closed.
- Theorem `TypeExpr.Derives.balanced`: the texts of types are such texts.
- Theorem `TypeExpr.Scan.lastOpen`: the bracket that was opened last is the last one that is not
  closed.
- Theorem `TypeExpr.Scan.Refused.fault`: what is refused names its place.
- Theorem `TypeExpr.refused_at_place`: neither parser cuts a text inside a character, and both
  tell where they refuse it.
-/

namespace DeclGraph
namespace TypeExpr

/-! ## Brackets that are closed -/

/-- Is a bracket closed in the text behind it, where `depth` others are open by then? Brackets
between backticks do not count; `quoted` tells whether a backtick is open. -/
def closes : Nat → Bool → List Char → Bool
  | _, _, [] => false
  | depth, quoted, c :: rest =>
    if c = '\x60' then closes depth (!quoted) rest
    else if quoted then closes depth quoted rest
    else if c = '[' then closes (depth + 1) quoted rest
    else if c = ']' then
      if depth = 0 then true else closes (depth - 1) quoted rest
    else closes depth quoted rest

/-- A text in which every bracket outside backticks is closed, and every backtick. -/
structure Balanced (text : List Char) : Prop where
  even : Even (text.count '\x60')
  passed : ∀ depth rest, closes depth false (text ++ rest) = closes depth false rest
  inside : ∀ before after, text = before ++ '[' :: after → Even (before.count '\x60') →
    closes 0 false after = true

/-- What is closed stays closed when the text goes on. -/
theorem closes_append {depth : Nat} {quoted : Bool} {text : List Char}
    (h : closes depth quoted text = true) (rest : List Char) :
    closes depth quoted (text ++ rest) = true := by
  induction text generalizing depth quoted with
  | nil => contradiction
  | cons c text ih =>
      rw [List.cons_append]
      rw [closes] at h ⊢
      split_ifs at h ⊢
      all_goals first
        | rfl
        | exact ih h

/-- A text without brackets and backticks. -/
theorem balanced_of_plain {text : List Char}
    (h : ∀ c ∈ text, c ≠ '\x60' ∧ c ≠ '[' ∧ c ≠ ']') : Balanced text where
  even := by
    rw [List.count_eq_zero.mpr fun hmem => (h _ hmem).1 rfl]
    exact Even.zero
  passed := by
    intro depth rest
    induction text with
    | nil => rfl
    | cons c text ih =>
        obtain ⟨⟨htick, hopen, hclose⟩, htext⟩ := List.forall_mem_cons.mp h
        rw [List.cons_append, closes, if_neg htick, if_neg Bool.false_ne_true, if_neg hopen,
          if_neg hclose, ih htext]
  inside := by
    rintro before after rfl
    exact absurd rfl (h '[' (by simp)).2.1

theorem balanced_nil : Balanced [] :=
  balanced_of_plain (by simp)

/-- A bracket in a text with another one behind it is closed, or is one of the other. -/
theorem Balanced.inside_append {text rest before after : List Char} (h : Balanced text)
    (hsplit : text ++ rest = before ++ '[' :: after) (hbefore : Even (before.count '\x60')) :
    closes 0 false after = true ∨ ∃ middle, rest = middle ++ '[' :: after ∧
      Even (middle.count '\x60') := by
  rcases List.append_eq_append_iff.mp hsplit with ⟨middle, rfl, hrest⟩ | ⟨middle, htext, hrest⟩
  · rw [List.count_append, Nat.even_add] at hbefore
    exact .inr ⟨middle, hrest, hbefore.mp h.even⟩
  · cases middle with
    | nil => exact .inr ⟨[], by simpa using hrest.symm, by simp⟩
    | cons c middle =>
        obtain ⟨rfl, rfl⟩ := List.cons_eq_cons.mp hrest
        exact .inl (closes_append (h.inside before middle htext hbefore) rest)

/-- Such texts one behind the other. -/
theorem Balanced.append {text rest : List Char} (h : Balanced text) (hrest : Balanced rest) :
    Balanced (text ++ rest) where
  even := by
    rw [List.count_append]
    exact h.even.add hrest.even
  passed := by
    intro depth behind
    rw [List.append_assoc, h.passed, hrest.passed]
  inside := by
    intro before after hsplit hbefore
    rcases h.inside_append hsplit hbefore with hclosed | ⟨middle, hmiddle, heven⟩
    · exact hclosed
    · exact hrest.inside middle after hmiddle heven

/-- Such a text between brackets. -/
theorem Balanced.bracket {text : List Char} (h : Balanced text) :
    Balanced ('[' :: text ++ [']']) where
  even := by simpa using h.even
  passed := by
    intro depth rest
    have hopen : closes depth false ('[' :: text ++ [']'] ++ rest) =
        closes (depth + 1) false (text ++ ']' :: rest) := by
      rw [List.append_assoc, List.cons_append]
      rfl
    rw [hopen, h.passed]
    rfl
  inside := by
    intro before after hsplit hbefore
    rw [List.cons_append] at hsplit
    cases before with
    | nil =>
        obtain ⟨-, rfl⟩ := List.cons_eq_cons.mp hsplit
        rw [h.passed]
        rfl
    | cons c before =>
        obtain ⟨rfl, hinner⟩ := List.cons_eq_cons.mp hsplit
        rcases h.inside_append hinner (by simpa using hbefore) with hclosed | ⟨middle, hmiddle, -⟩
        · exact hclosed
        · have hbracket : '[' ∈ [']'] := by simp [hmiddle]
          exact absurd hbracket (by decide)

/-- In the text of a path no bracket is closed. -/
theorem closes_of_quotedAfter {before after : Bool} {text : List Char}
    (h : Scan.quotedAfter before text = some after) (depth : Nat) (rest : List Char) :
    closes depth before (text ++ rest) = closes depth after rest := by
  induction text generalizing before with
  | nil => rw [Option.some.inj h, List.nil_append]
  | cons c text ih =>
      rw [Scan.quotedAfter] at h
      rw [List.cons_append, closes]
      split at h
      · next htick => rw [if_pos htick, ih h]
      · next htick =>
          split at h
          · next hstays =>
              rw [if_neg htick]
              split
              · exact ih h
              · next hquoted =>
                  have hends : Scan.endsPath c = false := by simpa [hquoted] using hstays
                  simp only [Scan.endsPath, Bool.or_eq_false_iff, decide_eq_false_iff_not] at hends
                  rw [if_neg hends.1.1.1, if_neg hends.1.2, ih h]
          · contradiction

/-- So no bracket stands in it outside backticks. -/
theorem PathText.balanced {text : List Char} {head : Path} (h : PathText text head) :
    Balanced text where
  even := h.even
  passed := fun depth rest => closes_of_quotedAfter h.quotedAfter depth rest
  inside := by
    intro before after htext hbefore
    exact absurd (h.unended before '[' after htext hbefore) (by decide)

theorem Blanks.balanced {blanks : List Char} (h : Blanks blanks) : Balanced blanks := by
  apply balanced_of_plain
  intro c hc
  have hblank := h c hc
  refine ⟨?_, ?_, ?_⟩ <;> rintro rfl <;> exact absurd hblank (by decide)

mutual

/-- Every bracket in a type is closed. -/
theorem Derives.balanced : ∀ {text : List Char} {type : TypeExpr}, Derives text type →
    Balanced text
  | _, _, .bare hblanks hpath => hblanks.balanced.append hpath.balanced
  | _, _, .empty hblanks hpath hinner => by
    simpa using (hblanks.balanced.append hpath.balanced).append hinner.balanced.bracket
  | _, _, .applied hblanks hpath hargs => by
    simpa using (hblanks.balanced.append hpath.balanced).append (DerivesArgs.balanced hargs).bracket

/-- So is every bracket in its arguments. -/
theorem DerivesArgs.balanced : ∀ {text : List Char} {types : List TypeExpr},
    DerivesArgs text types → Balanced text
  | _, _, .last htype hblanks => (Derives.balanced htype).append hblanks.balanced
  | _, _, .cons htype hblanks hrest => by
    have hcomma : Balanced [','] := balanced_of_plain (by simp)
    simpa using ((Derives.balanced htype).append hblanks.balanced).append
      (hcomma.append (DerivesArgs.balanced hrest))

end

/-! ## Places in a text -/

/-- A bracket outside backticks that is not closed. -/
structure OpenBracket (text before after : List Char) : Prop where
  split : text = before ++ '[' :: after
  even : Even (before.count '\x60')
  unclosed : closes 0 false after = false

/-- The text of a path within a text: it goes from the beginning, or from a bracket, comma or blank
outside backticks, to the next one or to the end. -/
structure PathPiece (text before piece after : List Char) : Prop where
  split : text = before ++ piece ++ after
  ne_nil : piece ≠ []
  even : Even (before.count '\x60')
  starts : ∀ c ∈ before.getLast?, Scan.endsPath c = true
  unended : Unended piece
  ends : ∀ c ∈ after.head?, Even (piece.count '\x60') ∧ Scan.endsPath c = true

/-- Where and why a text is refused as a type. -/
inductive Fault (text : String) : ParseError → Prop
  /-- The text of a path in it is no path; the error tells of that text. -/
  | path {before after : List Char} {piece : String} {e : ParseError}
      (hpiece : PathPiece text.toList before piece.toList after)
      (hparse : Path.parse piece = .error e) (hfault : Path.Fault piece e) : Fault text e
  /-- A character is out of place; it is told at which byte it begins. -/
  | unexpectedChar {before after : List Char} {c : Char}
      (htext : text.toList = before ++ c :: after) :
      Fault text (.unexpectedChar text (width before) c)
  /-- The last bracket that is not closed; it is told at which byte it stands. -/
  | unclosedBracket {before after : List Char} (hopen : OpenBracket text.toList before after)
      (hlast : ∀ before' after', OpenBracket text.toList before' after' →
        before'.length ≤ before.length) :
      Fault text (.unclosedBracket text (width before))
  /-- The text ends where more was needed. -/
  | unexpectedEnd : Fault text (.unexpectedEnd text)

namespace Scan

/-- Arguments that are complete have their brackets closed. -/
theorem ArgsBefore.balanced {front : List Char} {args : List TypeExpr} (h : ArgsBefore front args) :
    Balanced front := by
  induction h with
  | nil => exact balanced_nil
  | concat _ htype hblanks ih =>
      have hcomma : Balanced [','] := balanced_of_plain (by simp)
      exact ih.append ((htype.balanced.append hblanks.balanced).append hcomma)

/-- Where a type can begin a bracket, a comma or a blank was read last, or nothing. -/
theorem Framed.starts {frames : List Frame} {front blanks : List Char} (h : Framed frames front)
    (hblanks : Blanks blanks) : ∀ c ∈ (front ++ blanks).getLast?, endsPath c = true := by
  rcases List.eq_nil_or_concat blanks with rfl | ⟨blanks, last, rfl⟩
  · rw [List.append_nil]
    cases h with
    | nil => simp
    | cons _ _ _ hargs => cases hargs <;> simp [endsPath, List.getLast?_cons]
  · have hlast : Unicode.isBlank last = true := hblanks last (by simp)
    simp [endsPath, hlast]

/-- The bracket that was opened last is not closed, and every bracket behind it is. -/
theorem lastOpen {before after text : List Char} (htext : text = before ++ '[' :: after)
    (hbefore : Even (before.count '\x60')) (hafter : Balanced after) :
    OpenBracket text before after ∧ ∀ before' after', OpenBracket text before' after' →
      before'.length ≤ before.length := by
  constructor
  · refine ⟨htext, hbefore, ?_⟩
    rw [← List.append_nil after, hafter.passed]
    rfl
  · rintro before' after' ⟨hsplit, heven, hopen⟩
    subst htext
    rcases List.append_eq_append_iff.mp hsplit with ⟨middle, rfl, hmiddle⟩ | ⟨middle, rfl, -⟩
    · cases middle with
      | nil => simp
      | cons c middle =>
          obtain ⟨rfl, hsplit'⟩ := List.cons_eq_cons.mp hmiddle
          have hmiddle' : Even (middle.count '\x60') := by
            simpa [Nat.even_add, hbefore] using heven
          rw [hafter.inside middle after' hsplit' hmiddle'] at hopen
          contradiction
    · simp

/-- What is refused names its place. -/
theorem Refused.fault {input : String} {read rest : List Char} {e : ParseError}
    (h : Refused input read rest e) (hinput : input.toList = read ++ rest) : Fault input e := by
  cases h with
  | character => exact .unexpectedChar hinput
  | @path frames front blanks _ text quoted _ hread hframes hblanks hne hquoted hrest hparse =>
      obtain ⟨hunended, hparity⟩ := quotedAfter_eq_some_iff.mp hquoted
      have heven : Even ((front ++ blanks).count '\x60') := by
        simpa [hblanks.count] using hframes.even
      have hends : ∀ c ∈ rest.head?, Even (text.toList.count '\x60') ∧ endsPath c = true := by
        intro c hc
        obtain ⟨rfl, hend⟩ := hrest c hc
        exact ⟨by simpa using hparity, hend⟩
      have hsplit : input.toList = front ++ blanks ++ text.toList ++ rest := by
        simp [hinput, hread]
      exact .path ⟨hsplit, hne, heven, hframes.starts hblanks, hunended, hends⟩ hparse
        (Path.fault_of_parse hparse)
  | @bracket frame outer front text blanks type hread hframes htype hblanks =>
      cases hframes with
      | @cons _ front blanks' path inner head args houter hblanks' hpath hargs =>
          have hafter := hargs.balanced.append (htype.balanced.append hblanks.balanced)
          have hbefore : Even ((front ++ (blanks' ++ path)).count '\x60') := by
            simpa [hblanks'.count] using houter.even.add hpath.even
          have hsplit : input.toList =
              (front ++ (blanks' ++ path)) ++ '[' :: (inner ++ (text ++ blanks)) := by
            simp [hinput, hread]
          obtain ⟨hopen, hlast⟩ := lastOpen hsplit hbefore hafter
          exact .unclosedBracket hopen hlast
  | missing => exact .unexpectedEnd

end Scan

/-- Every refusal names a place in the text. -/
theorem fault_of_parse {text : String} {e : ParseError} (h : parse text = .error e) :
    Fault text e := by
  have hjudged := judged_parse text
  rw [h] at hjudged
  cases hjudged with
  | refused hsplit hrefused => exact hrefused.fault hsplit

/-- **Where texts are refused.**  Whatever bytes the characters of a text take, the descent comes to
what one pass comes to and never cuts a character; and what is refused as a type or as a path
names its place in the text. -/
theorem refused_at_place (text : String) :
    (∀ rounds, text.length + 2 ≤ rounds →
      Cursor.parseWithin rounds text = (parse text).mapError .refused) ∧
    (∀ e, parse text = .error e → Fault text e) ∧
    ∀ e, Path.parse text = .error e → Path.Fault text e :=
  ⟨fun _ => Cursor.parseWithin_eq text, fun _ => fault_of_parse, fun _ => Path.fault_of_parse⟩

/-- A bracket that is not closed, behind a character of two bytes, and a name that is missing behind
one. -/
theorem refused_behind_wide :
    Cursor.parseWithin 10 "é[ü[a],b" = .error (.refused (.unclosedBracket "é[ü[a],b" 2)) ∧
    Fault "é[ü[a],b" (.unclosedBracket "é[ü[a],b" 2) ∧
    Fault "b[é. ]" (.emptySegment "é." 1) ∧ Path.Fault "é." (.emptySegment "é." 1) := by
  obtain ⟨hdescent, htype, -⟩ := refused_at_place "é[ü[a],b"
  have hbracket : parse "é[ü[a],b" = .error (.unclosedBracket "é[ü[a],b" 2) := rfl
  have hwithin := hdescent 10 (by decide)
  rw [hbracket] at hwithin
  exact ⟨hwithin, htype _ hbracket, (refused_at_place "b[é. ]").2.1 _ rfl,
    (refused_at_place "é.").2.2 _ rfl⟩

end TypeExpr
end DeclGraph
