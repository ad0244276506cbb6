import DeclGraph.Path.Parser

/-!
# Written paths read back

A name is written bare only if all its characters may stand in an identifier or in an
operator, and so no dot is among them.  Any other name is written between backticks,
where nothing but a backtick has a meaning.  Reading the written form of a path
therefore finds the names again, unless one of them holds a backtick.  No reading ever
yields a name with a backtick in it.

Main results:

- Theorem `Name.written_text`: the two written forms of a name without backticks.
- Theorem `Path.Scan.run_written`: such a form is read as the name.
- Theorem `Path.Scan.run_joined`: names that are joined by dots are read one after the
  other.
- Theorem `Path.Scan.Unticked.run`: whatever is read holds no backtick.
- Theorem `Path.parse_text_iff_and_reread`: which paths read back from their written form.
-/

namespace DeclGraph

/-! ## Written names -/

namespace Name

/-- No backtick is among the characters of the name. -/
def Unticked (name : Name) : Prop :=
  '\x60' ∉ name.raw.toList

instance (name : Name) : Decidable name.Unticked :=
  inferInstanceAs (Decidable ('\x60' ∉ name.raw.toList))

/-- May the character stand in a name that is written bare? -/
def isBareChar (c : Char) : Bool :=
  c = '_' || c = '$' || Unicode.isIdentifierStart c || Unicode.isIdentifierContinue c ||
    operatorChars.contains c

/-- The dot has no place in identifiers and operators. -/
theorem not_isBareChar_dot : isBareChar '.' = false := by
  decide +kernel

/-- A name that needs no backticks is made of bare characters, and there is at least one. -/
theorem bare_of_not_needsQuoting {name : Name} (h : name.needsQuoting = false) :
    name.raw.isEmpty = false ∧ ∀ c ∈ name.raw.toList, isBareChar c = true := by
  simp only [needsQuoting, Bool.or_eq_false_iff, Bool.not_eq_false'] at h
  rcases h with ⟨⟨hne, -⟩, hchars⟩
  refine ⟨hne, ?_⟩
  rw [Bool.or_eq_true] at hchars
  rcases hchars with hplain | hoperator
  · cases hraw : name.raw.toList with
    | nil => simp
    | cons first rest =>
        rw [hraw] at hplain
        simp only [isPlainIdentifier, Bool.and_eq_true, Bool.or_eq_true, decide_eq_true_eq,
          List.all_eq_true] at hplain
        intro c hc
        rcases List.mem_cons.mp hc with rfl | hlater
        · rcases hplain.1 with (h | h) | h <;> simp [isBareChar, h]
        · rcases hplain.2 c hlater with h | h <;> simp [isBareChar, h]
  · unfold isOperatorIdentifier at hoperator
    rw [Bool.and_eq_true, List.all_eq_true] at hoperator
    intro c hc
    rw [isBareChar, hoperator.2 c hc, Bool.or_true]

/-- A text that is read as the name: the name itself, if nothing in it has a meaning to the reader,
or the name between backticks. -/
inductive Written (name : Name) : String → Prop
  | bare (hne : name.raw.isEmpty = false)
      (hchars : ∀ c ∈ name.raw.toList, c ≠ '.' ∧ c ≠ '\x60') : Written name name.raw
  | quoted (h : name.Unticked) : Written name name.quoted

/-- A name without backticks is written in one of these forms. -/
theorem written_text {name : Name} (h : name.Unticked) : Written name name.text := by
  cases hquoting : name.needsQuoting with
  | true =>
      rw [text_of_needsQuoting hquoting]
      exact .quoted h
  | false =>
      rcases bare_of_not_needsQuoting hquoting with ⟨hne, hbare⟩
      rw [text_of_not_needsQuoting hquoting]
      apply Written.bare hne
      intro c hc
      constructor <;> rintro rfl
      · have hdot := not_isBareChar_dot
        rw [hbare _ hc] at hdot
        contradiction
      · exact h hc

end Name

namespace Path

/-- At the beginning of a path, too, a name without backticks is written in one of these forms. -/
theorem written_leadingText {name : Name} (h : name.Unticked) :
    Name.Written name (leadingText name) := by
  unfold leadingText
  split
  · exact .quoted h
  · exact Name.written_text h

/-! ## Reading written names -/

namespace Scan

variable (input : String) (segments : List Name)

/-- Characters of which each is one more of the name are read as the next part of the name. -/
theorem run_pushes {quoting : Quoting} {chars : List Char}
    (hpush : ∀ c ∈ chars, ∀ offset current, step input offset ⟨segments, current, quoting⟩ c =
      .ok ⟨segments, current.push c, quoting⟩) (offset : Nat) (current : String)
    (rest : List Char) : ∃ later,
      run input offset ⟨segments, current, quoting⟩ (chars ++ rest) =
        run input later ⟨segments, current ++ String.ofList chars, quoting⟩ rest := by
  induction chars generalizing offset current with
  | nil => exact ⟨offset, by simp⟩
  | cons c chars ih =>
      rcases ih (fun d hd => hpush d (List.mem_cons_of_mem _ hd)) (offset + c.utf8Size)
        (current.push c) with ⟨later, hlater⟩
      have hcurrent : current.push c ++ String.ofList chars =
          current ++ String.ofList (c :: chars) := by
        apply String.toList_inj.mp
        simp
      refine ⟨later, ?_⟩
      rw [List.cons_append, run, hpush c List.mem_cons_self]
      simp only [hlater, hcurrent]

/-- A written name is read as the name, and the scan is then where it can be finished. -/
theorem run_written {name : Name} {text : String} (h : name.Written text) (offset : Nat)
    (rest : List Char) : ∃ quoting later, quoting ≠ .inside ∧
      finish input ⟨segments, name.raw, quoting⟩ = .ok { segments := segments ++ [name] } ∧
      run input offset { segments } (text.toList ++ rest) =
        run input later ⟨segments, name.raw, quoting⟩ rest := by
  cases h with
  | bare hne hchars =>
      have hpush : ∀ c ∈ name.raw.toList, ∀ offset current,
          step input offset ⟨segments, current, .bare⟩ c =
            .ok ⟨segments, current.push c, .bare⟩ := by
        intro c hc offset current
        simp [step, hchars c hc, push]
      rcases run_pushes input segments hpush offset "" rest with ⟨later, hlater⟩
      rw [String.ofList_toList, String.empty_append] at hlater
      exact ⟨.bare, later, by simp, by rw [finish, hne]; rfl, hlater⟩
  | quoted h =>
      have hpush : ∀ c ∈ name.raw.toList, ∀ offset current,
          step input offset ⟨segments, current, .inside⟩ c =
            .ok ⟨segments, current.push c, .inside⟩ := by
        intro c hc offset current
        have hne : c ≠ '\x60' := fun hsame => h (hsame ▸ hc)
        simp [step, hne, push]
      have hopen : ∀ rest, run input offset { segments } ('\x60' :: rest) =
          run input (offset + 1) ⟨segments, "", .inside⟩ rest := fun _ => rfl
      have hclose : ∀ offset rest, run input offset ⟨segments, name.raw, .inside⟩ ('\x60' :: rest) =
          run input (offset + 1) ⟨segments, name.raw, .closed⟩ rest := fun _ _ => rfl
      have htext : name.quoted.toList = '\x60' :: (name.raw.toList ++ ['\x60']) := by
        simp [Name.quoted]
      rcases run_pushes input segments hpush (offset + 1) "" ('\x60' :: rest) with ⟨later, hlater⟩
      rw [String.ofList_toList, String.empty_append] at hlater
      refine ⟨.closed, later + 1, by simp, by simp [finish], ?_⟩
      rw [htext, List.cons_append, List.append_assoc, List.singleton_append, hopen, hlater, hclose]

/-- Names that are written one after the other, with dots between them, are read one after the
other. -/
theorem run_joined {first : Name} {text : String} {rest : List Name} (hfirst : first.Written text)
    (hrest : ∀ name ∈ rest, name.Unticked) (offset : Nat) :
    run input offset { segments } (".".intercalate (text :: rest.map Name.text)).toList =
      .ok ⟨segments ++ first :: rest⟩ := by
  induction rest generalizing first text segments offset with
  | nil =>
      rcases run_written input segments hfirst offset [] with
        ⟨quoting, later, hquoting, hfinish, hrun⟩
      rw [List.append_nil] at hrun
      rw [List.map_nil, String.intercalate_singleton, hrun, run, close, if_neg hquoting, hfinish]
      rfl
  | cons second rest ih =>
      have hsecond := Name.written_text (hrest second List.mem_cons_self)
      have hlater : ∀ name ∈ rest, name.Unticked :=
        fun name hname => hrest name (List.mem_cons_of_mem _ hname)
      have htext : (".".intercalate (text :: (second :: rest).map Name.text)).toList =
          text.toList ++
            '.' :: (".".intercalate (second.text :: rest.map Name.text)).toList := by
        rw [List.map_cons, String.intercalate_cons_cons]
        simp
      rcases run_written input segments hfirst offset
        ('.' :: (".".intercalate (second.text :: rest.map Name.text)).toList) with
        ⟨quoting, later, hquoting, hfinish, hrun⟩
      have hdot : ∀ offset, step input offset ⟨segments, first.raw, quoting⟩ '.' =
          finish input ⟨segments, first.raw, quoting⟩ := by
        intro offset
        cases quoting with
        | inside => contradiction
        | bare => rfl
        | closed => rfl
      rw [htext, hrun, run, hdot, hfinish]
      simp only [ih _ hsecond hlater, List.append_assoc, List.singleton_append]

/-! ## What is read holds no backtick -/

variable {input}

/-- Nothing that was read so far holds a backtick. -/
structure Unticked (scan : Scan) : Prop where
  segments : ∀ name ∈ scan.segments, name.Unticked
  current : '\x60' ∉ scan.current.toList

/-- One more character that is not a backtick. -/
theorem Unticked.push {scan : Scan} (h : scan.Unticked) {c : Char} (hc : c ≠ '\x60') :
    (scan.push c).Unticked := by
  refine ⟨h.segments, ?_⟩
  intro hmem
  rw [Scan.push, String.toList_push, List.mem_append, List.mem_singleton] at hmem
  exact hmem.elim h.current (fun hsame => hc hsame.symm)

/-- The text of the name that was being read becomes a name. -/
theorem Unticked.finish {scan next : Scan} (h : scan.Unticked)
    (hfinish : scan.finish input = .ok next) : next.Unticked := by
  unfold Scan.finish at hfinish
  split at hfinish
  · contradiction
  · cases hfinish
    refine ⟨?_, by simp⟩
    intro name hname
    rcases List.mem_append.mp hname with hfinished | hlast
    · exact h.segments name hfinished
    · rw [List.mem_singleton.mp hlast]
      exact h.current

/-- No character brings a backtick into what is read: each backtick is a quote. -/
theorem Unticked.step {scan next : Scan} (h : scan.Unticked) {offset : Nat} {c : Char}
    (hstep : scan.step input offset c = .ok next) : next.Unticked := by
  have hquote : ∀ quoting, Unticked { scan with quoting := quoting } :=
    fun _ => ⟨h.segments, h.current⟩
  by_cases hc : c = '\x60'
  · subst hc
    unfold Scan.step at hstep
    split at hstep <;> simp only [if_true] at hstep
    · cases hstep
      exact hquote .closed
    all_goals
      split at hstep
      · cases hstep
        exact hquote .inside
      · contradiction
  · unfold Scan.step at hstep
    split at hstep <;> simp only [if_neg hc] at hstep
    · cases hstep
      exact h.push hc
    all_goals
      split at hstep
      · exact h.finish hstep
    · cases hstep
      exact h.push hc
    · contradiction

/-- No text brings a backtick into what is read. -/
theorem Unticked.run {scan : Scan} (h : scan.Unticked) {offset : Nat} {chars : List Char}
    {path : Path} (hrun : Scan.run input offset scan chars = .ok path) :
    ∀ name ∈ path.segments, name.Unticked := by
  induction chars generalizing offset scan with
  | nil =>
      rw [Scan.run, close] at hrun
      split at hrun
      · contradiction
      · cases hfinish : scan.finish input with
        | error e => rw [hfinish] at hrun; contradiction
        | ok done =>
            rw [hfinish] at hrun
            cases hrun
            exact (h.finish hfinish).segments
  | cons c chars ih =>
      rw [Scan.run] at hrun
      split at hrun
      · contradiction
      · rename_i next hstep
        exact ih (h.step hstep) hrun

end Scan

/-- No path that can be read has a backtick in one of its names. -/
theorem unticked_of_parse {text : String} {path : Path} (h : parse text = .ok path) :
    ∀ name ∈ path.segments, name.Unticked := by
  unfold parse at h
  split at h
  · cases h
    simp
  · split at h
    · contradiction
    · exact Scan.Unticked.run ⟨by simp, by simp⟩ h

/-! ## Reading back -/

/-- A path without backticks is read from its written names, whatever text they are a part of. -/
theorem run_text {path : Path} (hroot : path.isRoot = false)
    (h : ∀ name ∈ path.segments, name.Unticked) (input : String) :
    Scan.run input 0 {} path.text.toList = .ok path := by
  rcases path with ⟨_ | ⟨first, rest⟩⟩
  · contradiction
  · have hrun := Scan.run_joined input []
      (written_leadingText (h first List.mem_cons_self))
      (fun name hname => h name (List.mem_cons_of_mem _ hname)) 0
    rw [text, if_neg (by simp [hroot])]
    exact hrun

/-- Only the root is written as the root. -/
theorem text_eq_rootLiteral {path : Path} (h : ∀ name ∈ path.segments, name.Unticked) :
    path.text = rootLiteral ↔ path.isRoot = true := by
  constructor
  · intro htext
    cases hroot : path.isRoot with
    | true => rfl
    | false =>
        have hrun := run_text hroot h ""
        rw [htext] at hrun
        have hread : Scan.run "" 0 {} rootLiteral.toList = .ok ⟨[⟨rootLiteral⟩]⟩ := rfl
        rw [hread] at hrun
        cases hrun
        -- A name that is the literal would have been written between backticks.
        exact absurd htext (by decide +kernel)
  · intro hroot
    rw [text, if_pos hroot]

/-- A path without backticks reads back from its written form. -/
theorem parse_text {path : Path} (h : ∀ name ∈ path.segments, name.Unticked) :
    parse path.text = .ok path := by
  cases hroot : path.isRoot with
  | true =>
      rw [(text_eq_rootLiteral h).mpr hroot, parse_rootLiteral]
      rcases path with ⟨_ | ⟨first, rest⟩⟩
      · rfl
      · contradiction
  | false =>
      have hrun := run_text hroot h path.text
      have hliteral : path.text ≠ rootLiteral := by
        intro htext
        rw [(text_eq_rootLiteral h).mp htext] at hroot
        contradiction
      have hne : ¬ path.text.isEmpty := by
        intro hempty
        rw [String.isEmpty_iff.mp hempty] at hrun
        contradiction
      rw [parse, if_neg hliteral, if_neg hne]
      exact hrun

/-- **Which paths read back.**  A path reads back from its written form exactly when no name on it
has a backtick.  So does every path that was read from some text, canonical or not. -/
theorem parse_text_iff_and_reread :
    (∀ path : Path, parse path.text = .ok path ↔
      ∀ name ∈ path.segments, '\x60' ∉ name.raw.toList) ∧
    ∀ (text : String) (path : Path), parse text = .ok path → parse path.text = .ok path :=
  ⟨fun _ => ⟨unticked_of_parse, parse_text⟩, fun _ _ h => parse_text (unticked_of_parse h)⟩

/-- A text with more backticks than it needs, and the root literal as a name. -/
theorem reread_quoted :
    parse "`_root_`.`a`.``" = .ok ⟨[⟨"_root_"⟩, ⟨"a"⟩, ⟨""⟩]⟩ ∧
      parse (⟨[⟨"_root_"⟩, ⟨"a"⟩, ⟨""⟩]⟩ : Path).text = .ok ⟨[⟨"_root_"⟩, ⟨"a"⟩, ⟨""⟩]⟩ := by
  have hread : parse "`_root_`.`a`.``" = .ok ⟨[⟨"_root_"⟩, ⟨"a"⟩, ⟨""⟩]⟩ := rfl
  exact ⟨hread, parse_text_iff_and_reread.2 _ _ hread⟩

end Path
end DeclGraph
