import DeclGraph.Graph.Traversal
import DeclGraph.Proofs.WrittenTypes
import Mathlib.Data.List.Basic

/-!
# Written lines read back

A declaration is written on one line if there is no line feed in the names that it mentions,
nor in its text if it is a comment.  In front stands the indentation; as no declaration is
written with a space at its beginning, the depth can be read off.  At the end a remark may
stand that there is a companion; as no declaration is written with such an end, it can be
seen whether the remark is there.  What is left in the middle is the declaration in writing,
and its first letter tells whether it is a container.

Main results:

- Theorem `Decl.oneLine_text`: a declaration without line feeds is written on one line.
- Theorem `Decl.exists_initial`: how a declaration begins in writing.
- Theorem `Decl.not_remarked_text`: no declaration ends like the remark on companions.
- Theorem `Graph.outlineLine_inj`: what can be read off a line of an outline.
- Theorem `Text.eq_of_join_eq`: a text is made of lines in one way only.
-/

namespace DeclGraph

/-! ## Names at all places -/

/-- The names at any place of a type. -/
def TypeExpr.names (type : TypeExpr) : List Name :=
  type.nodes.flatMap fun node => node.1.segments

/-- The name of a type parameter and those in its bound. -/
def TypeParam.names (tparam : TypeParam) : List Name :=
  tparam.name :: (tparam.bound.map TypeExpr.names).getD []

/-- The name of a parameter and those in its type. -/
def Param.names (param : Param) : List Name :=
  param.name :: param.type.names

namespace Decl

/-- The names at any place of a declaration. -/
def names : Decl → List Name
  | comment _ => []
  | package p => [p.name]
  | klass k => k.name :: (k.tparams.flatMap TypeParam.names ++ k.parents.flatMap TypeExpr.names)
  | object o => [o.name]
  | field f => f.name :: f.type.names
  | method m => m.name ::
      (m.tparams.flatMap TypeParam.names ++ m.params.flatMap Param.names ++ m.result.names)
  | typeParam t => t.names
  | param p => p.names

/-- Type parameters and parameters stand in signatures; everything else stands for itself. -/
def Standing (decl : Decl) : Prop :=
  decl.kind ≠ .typeParam ∧ decl.kind ≠ .param

/-- The running text of a comment. -/
def comment? : Decl → Option String
  | comment text => some text
  | _ => none

end Decl

/-! ## Texts on one line -/

namespace Text

/-- There is no line feed in the text. -/
def OneLine (text : String) : Prop :=
  '\n' ∉ text.toList

instance (text : String) : Decidable (OneLine text) :=
  inferInstanceAs (Decidable ('\n' ∉ text.toList))

@[simp] theorem oneLine_append {a b : String} : OneLine (a ++ b) ↔ OneLine a ∧ OneLine b := by
  simp [OneLine]

/-- Texts on one line are on one line also when they are joined. -/
theorem oneLine_intercalate {separator : String} {texts : List String}
    (hseparator : OneLine separator) (h : ∀ text ∈ texts, OneLine text) :
    OneLine (separator.intercalate texts) := by
  induction texts with
  | nil => simp [OneLine]
  | cons first rest ih =>
      obtain ⟨hfirst, hrest⟩ := List.forall_mem_cons.mp h
      cases rest with
      | nil => rwa [String.intercalate_singleton]
      | cons second rest =>
          rw [String.intercalate_cons_cons, oneLine_append, oneLine_append]
          exact ⟨⟨hfirst, hseparator⟩, ih hrest⟩

/-- What is no digit is in no number. -/
theorem not_mem_toDigits {c : Char} (hdigit : ∀ d, c ≠ Nat.digitChar d) (n : Nat) :
    c ∉ Nat.toDigits 16 n := by
  induction n using Nat.strongRecOn with
  | ind n ih =>
      by_cases hlt : n < 16
      · rw [Nat.toDigits_of_lt_base hlt, List.mem_singleton]
        exact hdigit n
      · rw [Nat.toDigits_of_base_le (by decide) (by omega), List.mem_append, List.mem_singleton]
        exact not_or.mpr ⟨ih (n / 16) (by omega), hdigit _⟩

/-- The line feed is one of the characters that are escaped. -/
theorem lineFeed_not_mem_escape (c : Char) : '\n' ∉ escape c := by
  by_cases hfeed : c = '\n'
  · subst hfeed
    decide
  · have hcode : '\n' ∉ codePointEscape c := by
      have hdigit : ∀ d, '\n' ≠ Nat.digitChar d := fun d => (Nat.digitChar_ne '\n' rfl).symm
      simpa [codePointEscape] using not_mem_toDigits hdigit c.toNat
    have hself : '\n' ∉ [c] := fun hmem => hfeed (List.mem_singleton.mp hmem).symm
    unfold escape
    split_ifs <;> first | exact hcode | exact hself | decide

/-- A literal is written on one line. -/
theorem oneLine_quoted (text : String) : OneLine (quoted text) := by
  simp [OneLine, lineFeed_not_mem_escape]

end Text

open Text

theorem Name.oneLine_quoted {name : Name} (h : OneLine name.raw) : OneLine name.quoted :=
  oneLine_append.mpr ⟨oneLine_append.mpr ⟨by decide, h⟩, by decide⟩

/-- A name is written on one line if it is on one line. -/
theorem Name.oneLine_text {name : Name} (h : OneLine name.raw) : OneLine name.text := by
  unfold Name.text
  split
  · exact Name.oneLine_quoted h
  · exact h

/-- A path is written on one line if all its names are on one line. -/
theorem Path.oneLine_text {path : Path} (h : ∀ name ∈ path.segments, OneLine name.raw) :
    OneLine path.text := by
  have hleading : ∀ name : Name, OneLine name.raw → OneLine (leadingText name) := by
    intro name hname
    unfold leadingText
    split
    · exact Name.oneLine_quoted hname
    · exact Name.oneLine_text hname
  obtain ⟨_ | ⟨first, rest⟩⟩ := path
  · decide
  · obtain ⟨hfirst, hrest⟩ := List.forall_mem_cons.mp h
    have hdot : OneLine "." := by decide
    have hsegments : ∀ written ∈ segmentTexts (first :: rest), OneLine written := by
      rw [segmentTexts, List.forall_mem_cons, List.forall_mem_map]
      exact ⟨hleading first hfirst, fun name hname => Name.oneLine_text (hrest name hname)⟩
    rw [text, isRoot, List.isEmpty_cons, if_neg Bool.false_ne_true]
    exact oneLine_intercalate hdot hsegments

namespace TypeExpr

theorem names_mk (head : Path) (args : List TypeExpr) :
    names ⟨head, args⟩ = head.segments ++ args.flatMap names := by
  have hargs : (nodesOfList args).flatMap (fun node => node.1.segments) = args.flatMap names := by
    induction args with
    | nil => rfl
    | cons type rest ih => rw [nodesOfList, List.flatMap_append, ih, List.flatMap_cons, names]
  rw [names, nodes, List.flatMap_cons, hargs]

mutual

/-- A type is written on one line if all names in it are on one line. -/
theorem oneLine_text : ∀ {type : TypeExpr}, (∀ name ∈ type.names, OneLine name.raw) →
    OneLine type.text
  | ⟨head, args⟩, h => by
    rw [names_mk, List.forall_mem_append] at h
    have hcomma : OneLine ", " := by decide
    have hargs := oneLine_intercalate hcomma (oneLine_texts h.2)
    rw [text, texts_eq_map]
    simpa [Path.oneLine_text h.1, hargs] using (by decide : OneLine "[" ∧ OneLine "]")

theorem oneLine_texts : ∀ {types : List TypeExpr},
    (∀ name ∈ types.flatMap names, OneLine name.raw) → ∀ written ∈ types.map text, OneLine written
  | [], _ => by simp
  | type :: rest, h => by
    rw [List.flatMap_cons, List.forall_mem_append] at h
    rw [List.map_cons, List.forall_mem_cons]
    exact ⟨oneLine_text h.1, oneLine_texts h.2⟩

end

end TypeExpr

theorem TypeParam.oneLine_text {tparam : TypeParam} (h : ∀ name ∈ tparam.names, OneLine name.raw) :
    OneLine tparam.text := by
  obtain ⟨name, bound⟩ := tparam
  obtain ⟨hname, hbound⟩ := List.forall_mem_cons.mp h
  cases bound with
  | none => exact Name.oneLine_text hname
  | some bound =>
      refine oneLine_append.mpr ⟨oneLine_append.mpr ⟨Name.oneLine_text hname, by decide⟩, ?_⟩
      exact TypeExpr.oneLine_text hbound

theorem TypeParam.oneLine_listText {tparams : List TypeParam}
    (h : ∀ name ∈ tparams.flatMap TypeParam.names, OneLine name.raw) :
    OneLine (TypeParam.listText tparams) := by
  have htexts : ∀ written ∈ tparams.map TypeParam.text, OneLine written := by
    rw [List.forall_mem_map]
    intro tparam htparam
    exact TypeParam.oneLine_text fun name hname => h name (List.mem_flatMap.mpr ⟨_, htparam, hname⟩)
  have hcomma : OneLine ", " := by decide
  unfold TypeParam.listText
  split
  · decide
  · simpa [oneLine_intercalate hcomma htexts] using (by decide : OneLine "<" ∧ OneLine ">")

theorem Param.oneLine_text {param : Param} (h : ∀ name ∈ param.names, OneLine name.raw) :
    OneLine param.text := by
  obtain ⟨hname, htype⟩ := List.forall_mem_cons.mp h
  have hdefault : OneLine (if param.optional then " = _" else "") := by split <;> decide
  have hcolon : OneLine ": " := by decide
  simp [Param.text, Name.oneLine_text hname, TypeExpr.oneLine_text htype, hdefault, hcolon]

namespace Decl

/-- No name in the declaration has a line feed, nor has its text if it is a comment. -/
def OneLine (decl : Decl) : Prop :=
  (∀ text ∈ decl.comment?, Text.OneLine text) ∧ ∀ name ∈ decl.names, Text.OneLine name.raw

instance (decl : Decl) : Decidable decl.OneLine :=
  inferInstanceAs (Decidable ((∀ text ∈ decl.comment?, Text.OneLine text) ∧
    ∀ name ∈ decl.names, Text.OneLine name.raw))

/-- A declaration without line feeds is written on one line. -/
theorem oneLine_text {decl : Decl} (h : decl.OneLine) : Text.OneLine decl.text := by
  obtain ⟨hcomment, hnames⟩ := h
  cases decl with
  | comment text =>
      exact oneLine_append.mpr ⟨oneLine_append.mpr ⟨by decide, hcomment text rfl⟩, by decide⟩
  | package p =>
      exact oneLine_append.mpr ⟨by decide, Name.oneLine_text (hnames _ List.mem_cons_self)⟩
  | klass k =>
      obtain ⟨hname, hrest⟩ := List.forall_mem_cons.mp hnames
      have hword : Text.OneLine (if k.isTrait then "trait " else "class ") := by split <;> decide
      refine oneLine_append.mpr ⟨oneLine_append.mpr ⟨hword, Name.oneLine_text hname⟩, ?_⟩
      exact TypeParam.oneLine_listText (List.forall_mem_append.mp hrest).1
  | object o =>
      exact oneLine_append.mpr ⟨by decide, Name.oneLine_text (hnames _ List.mem_cons_self)⟩
  | field f =>
      obtain ⟨hname, htype⟩ := List.forall_mem_cons.mp hnames
      have hwords : Text.OneLine "var " ∧ Text.OneLine ": " := by decide
      simp [text, FieldDecl.text, hwords, Name.oneLine_text hname, TypeExpr.oneLine_text htype]
  | method m =>
      obtain ⟨hname, hrest⟩ := List.forall_mem_cons.mp hnames
      rw [List.forall_mem_append, List.forall_mem_append] at hrest
      obtain ⟨⟨htparams, hparams⟩, hresult⟩ := hrest
      have hnative : Text.OneLine m.nativeNameText := by
        unfold MethodDecl.nativeNameText
        split
        · decide
        · simpa [oneLine_quoted] using (by decide : Text.OneLine "@JSName(" ∧ Text.OneLine ") ")
      have hbracket : Text.OneLine (if m.bracket then "@JSBracketAccess " else "") := by
        split <;> decide
      have hparamTexts : Text.OneLine (", ".intercalate (m.params.map Param.text)) := by
        refine oneLine_intercalate (by decide) (List.forall_mem_map.mpr fun param hparam => ?_)
        exact Param.oneLine_text fun name hname =>
          hparams name (List.mem_flatMap.mpr ⟨_, hparam, hname⟩)
      have hwords : Text.OneLine "def " ∧ Text.OneLine "(" ∧ Text.OneLine "): " := by decide
      simp [text, MethodDecl.text, hnative, hbracket, hwords, Name.oneLine_text hname,
        TypeParam.oneLine_listText htparams, hparamTexts, TypeExpr.oneLine_text hresult]
  | typeParam t => exact TypeParam.oneLine_text hnames
  | param p => exact Param.oneLine_text hnames

/-! ## Beginnings -/

/-- How a declaration begins in writing: not with a space, and containers with other letters than
anything else. -/
theorem exists_initial {decl : Decl} (h : decl.Standing) :
    ∃ c, decl.text.toList.head? = some c ∧ c ≠ ' ' ∧
      (decl.isContainer = true ↔ c ∈ ['p', 't', 'c', 'o']) := by
  cases decl with
  | comment text =>
      exact ⟨'/', by simp [Decl.text], by decide, iff_of_false Bool.false_ne_true (by decide)⟩
  | package p =>
      exact ⟨'p', by simp [Decl.text, PackageDecl.text], by decide, iff_of_true rfl (by decide)⟩
  | klass k =>
      refine ⟨if k.isTrait then 't' else 'c', ?_, ?_, iff_of_true rfl ?_⟩ <;>
        cases htrait : k.isTrait <;> simp [Decl.text, ClassDecl.text, htrait]
  | object o =>
      exact ⟨'o', by simp [Decl.text, ObjectDecl.text], by decide, iff_of_true rfl (by decide)⟩
  | field f =>
      exact ⟨'v', by simp [Decl.text, FieldDecl.text], by decide,
        iff_of_false Bool.false_ne_true (by decide)⟩
  | method m =>
      refine ⟨if m.nativeName.isSome || m.bracket then '@' else 'd', ?_, ?_,
        iff_of_false Bool.false_ne_true ?_⟩ <;>
        cases hnative : m.nativeName <;> cases hbracket : m.bracket <;>
          simp [Decl.text, MethodDecl.text, MethodDecl.nativeNameText, hnative, hbracket]
  | typeParam t => exact absurd rfl h.1
  | param p => exact absurd rfl h.2

/-- Declarations that are written alike are both containers or both not. -/
theorem isContainer_eq_of_text_eq {a b : Decl} (ha : a.Standing) (hb : b.Standing)
    (h : a.text = b.text) : a.isContainer = b.isContainer := by
  obtain ⟨c, hc, -, hcontainer⟩ := exists_initial ha
  obtain ⟨d, hd, -, hcontainer'⟩ := exists_initial hb
  rw [h, hd] at hc
  obtain rfl := Option.some.inj hc
  rw [Bool.eq_iff_iff, hcontainer, hcontainer']

end Decl

/-! ## Endings -/

/-- The characters of the remark that there is a companion. -/
def companionRemark : List Char :=
  " // companion".toList

/-- Nothing that ends with another letter ends like the remark. -/
theorem not_remarked_concat (front : List Char) {c : Char} (hc : c ≠ 'n') :
    ¬ companionRemark <:+ front ++ [c] := by
  have hremark : companionRemark = " // companio".toList ++ ['n'] := by decide
  have hlength : ['n'].length = [c].length := rfl
  rw [hremark, List.suffix_append_inj_of_length_eq hlength, List.singleton_inj]
  exact fun h => hc h.2.symm

/-- Two spaces are in the remark, so it is not the end of anything that has less. -/
theorem not_remarked_of_count {chars : List Char} (h : chars.count ' ' < 2) :
    ¬ companionRemark <:+ chars := by
  intro hsuffix
  have hcount := hsuffix.sublist.count_le ' '
  have htwo : companionRemark.count ' ' = 2 := by decide
  omega

/-- A name at the end is no remark: it is written with a backtick behind it or without spaces. -/
theorem not_remarked_name {front : List Char} (hfront : front.count ' ' < 2) (name : Name) :
    ¬ companionRemark <:+ front ++ name.text.toList := by
  cases hquoting : name.needsQuoting with
  | true =>
      have hquoted : name.text.toList = "`".toList ++ name.raw.toList ++ ['\x60'] := by
        simp [Name.text_of_needsQuoting hquoting, Name.quoted]
      rw [hquoted, ← List.append_assoc]
      exact not_remarked_concat _ (by decide)
  | false =>
      have hspace : ' ' ∉ name.raw.toList := by
        intro hspace
        have hbare := (Name.bare_of_not_needsQuoting hquoting).2 _ hspace
        rw [TypeExpr.Scan.not_isBareChar_of_isBlank (by decide)] at hbare
        contradiction
      refine not_remarked_of_count ?_
      rwa [Name.text_of_not_needsQuoting hquoting, List.count_append,
        List.count_eq_zero.mpr hspace]

/-- A type at the end is no remark: it ends with a bracket. -/
theorem not_remarked_type (front : List Char) (type : TypeExpr) :
    ¬ companionRemark <:+ front ++ type.text.toList := by
  obtain ⟨head, args⟩ := type
  rw [TypeExpr.Scan.toList_text, List.append_cons, ← List.append_assoc, ← List.append_assoc]
  exact not_remarked_concat _ (by decide)

/-- No declaration ends like the remark that there is a companion. -/
theorem Decl.not_remarked_text {decl : Decl} (h : decl.Standing) :
    ¬ companionRemark <:+ decl.text.toList := by
  cases decl with
  | comment text =>
      have htext : (comment text).text.toList = ("/* " ++ text ++ " *").toList ++ ['/'] := by
        simp [Decl.text]
      rw [htext]
      exact not_remarked_concat _ (by decide)
  | package p =>
      rw [Decl.text, PackageDecl.text, String.toList_append]
      exact not_remarked_name (by decide) p.name
  | klass k =>
      rw [Decl.text, ClassDecl.text, TypeParam.listText]
      cases k.tparams with
      | nil =>
          rw [List.isEmpty_nil, if_pos rfl, String.append_empty, String.toList_append]
          exact not_remarked_name (by split <;> decide) k.name
      | cons tparam tparams =>
          have hbrackets : ∀ inner, ("<" ++ inner ++ ">").toList = ("<" ++ inner).toList ++ ['>'] :=
            fun inner => String.toList_append
          rw [List.isEmpty_cons, if_neg Bool.false_ne_true, String.toList_append, hbrackets,
            ← List.append_assoc]
          exact not_remarked_concat _ (by decide)
  | object o =>
      rw [Decl.text, ObjectDecl.text, String.toList_append]
      exact not_remarked_name (by decide) o.name
  | field f =>
      rw [Decl.text, FieldDecl.text, String.toList_append]
      exact not_remarked_type _ f.type
  | method m =>
      rw [Decl.text, MethodDecl.text, String.toList_append]
      exact not_remarked_type _ m.result
  | typeParam t => exact absurd rfl h.1
  | param p => exact absurd rfl h.2

/-! ## Lines -/

/-- Two lists that are put together from what passes a test and from what begins with something that
does not are equal part by part. -/
theorem append_inj_of_takeWhile {α : Type} {p : α → Bool} {front front' back back' : List α}
    (hfront : ∀ a ∈ front, p a = true) (hfront' : ∀ a ∈ front', p a = true)
    (hback : back.takeWhile p = []) (hback' : back'.takeWhile p = [])
    (h : front ++ back = front' ++ back') : front = front' ∧ back = back' := by
  have hsame := congrArg (List.takeWhile p) h
  rw [List.takeWhile_append_of_pos hfront, List.takeWhile_append_of_pos hfront', hback, hback',
    List.append_nil, List.append_nil] at hsame
  subst hsame
  exact ⟨rfl, List.append_cancel_left h⟩

/-- A text that is a line: a line feed ends it, and there is none before. -/
def Text.IsLine (line : String) : Prop :=
  ∃ body, OneLine body ∧ line = body ++ "\n"

/-- A text is made of lines in one way only. -/
theorem Text.eq_of_join_eq {lines lines' : List String} (hlines : ∀ line ∈ lines, IsLine line)
    (hlines' : ∀ line ∈ lines', IsLine line) (h : String.join lines = String.join lines') :
    lines = lines' := by
  have hjoin : ∀ body rest, (String.join ((body ++ "\n") :: rest)).toList =
      body.toList ++ '\n' :: (String.join rest).toList := by
    intro body rest
    simp [String.toList_join]
  have hsome : ∀ body rest, String.join ((body ++ "\n") :: rest) ≠ String.join [] := by
    intro body rest hempty
    have hchars := congrArg String.toList hempty
    rw [hjoin] at hchars
    simp [String.join] at hchars
  induction lines generalizing lines' with
  | nil =>
      cases lines' with
      | nil => rfl
      | cons line' rest' =>
          obtain ⟨⟨body', -, rfl⟩, -⟩ := List.forall_mem_cons.mp hlines'
          exact absurd h.symm (hsome body' rest')
  | cons line rest ih =>
      obtain ⟨⟨body, hbody, rfl⟩, hrest⟩ := List.forall_mem_cons.mp hlines
      cases lines' with
      | nil => exact absurd h (hsome body rest)
      | cons line' rest' =>
          obtain ⟨⟨body', hbody', rfl⟩, hrest'⟩ := List.forall_mem_cons.mp hlines'
          have hchars := congrArg String.toList h
          rw [hjoin, hjoin] at hchars
          have hinside : ∀ body, OneLine body → ∀ c ∈ body.toList, (c != '\n') = true := by
            intro body hbody c hc
            exact bne_iff_ne.mpr fun hfeed => hbody (hfeed ▸ hc)
          obtain ⟨hsame, hlater⟩ := append_inj_of_takeWhile (hinside body hbody)
            (hinside body' hbody') (by simp) (by simp) hchars
          rw [String.toList_inj.mp hsame,
            ih hrest hrest' (String.toList_inj.mp (List.cons.inj hlater).2)]

namespace Graph

/-- The line of a declaration: indentation, the declaration, and perhaps a remark. -/
theorem toList_outlineLine (depth : Nat) (decl : Decl) : (outlineLine depth decl).toList =
    List.replicate (2 * depth) ' ' ++
      (decl.text.toList ++ (if decl.companion?.isSome then companionRemark else []) ++ ['\n']) := by
  rw [outlineLine, String.toList_append, String.toList_append, String.toList_append,
    String.toList_ofList, List.append_assoc, List.append_assoc, List.append_assoc]
  congr 3
  split <;> rfl

/-- The line of a declaration without line feeds is one line. -/
theorem isLine_outlineLine (depth : Nat) {decl : Decl} (h : decl.OneLine) :
    IsLine (outlineLine depth decl) := by
  refine ⟨_, ?_, rfl⟩
  have hindent : OneLine (String.ofList (List.replicate (2 * depth) ' ')) := by
    rw [OneLine, String.toList_ofList, List.mem_replicate]
    exact fun hfeed => absurd hfeed.2 (by decide)
  have hremark : OneLine (if decl.companion?.isSome then " // companion" else "") := by
    split <;> decide
  exact oneLine_append.mpr ⟨oneLine_append.mpr ⟨hindent, Decl.oneLine_text h⟩, hremark⟩

/-- The number of spaces at the beginning of a line. -/
def indent (line : String) : Nat :=
  (line.toList.takeWhile (· == ' ')).length

/-- The indentation tells the depth, as the declaration itself does not begin with a space. -/
theorem indent_outlineLine (depth : Nat) {decl : Decl} (h : decl.Standing) :
    indent (outlineLine depth decl) = 2 * depth := by
  obtain ⟨c, hc, hspace, -⟩ := Decl.exists_initial h
  obtain ⟨chars, hchars⟩ := List.head?_eq_some_iff.mp hc
  have hspaces : ∀ c ∈ List.replicate (2 * depth) ' ', (c == ' ') = true := by
    intro c hc
    rw [List.eq_of_mem_replicate hc]
    rfl
  rw [indent, toList_outlineLine, hchars, List.takeWhile_append_of_pos hspaces, List.cons_append,
    List.cons_append, List.takeWhile_cons_of_neg (by simpa using hspace), List.append_nil,
    List.length_replicate]

/-- The depth of a declaration, its text and whether it has a companion can be read off its
line. -/
theorem outlineLine_inj {depth depth' : Nat} {decl decl' : Decl} (hdecl : decl.Standing)
    (hdecl' : decl'.Standing) (h : outlineLine depth decl = outlineLine depth' decl') :
    depth = depth' ∧ decl.text = decl'.text ∧
      decl.companion?.isSome = decl'.companion?.isSome := by
  have hindent := congrArg indent h
  rw [indent_outlineLine depth hdecl, indent_outlineLine depth' hdecl'] at hindent
  obtain rfl : depth = depth' := by omega
  have hchars := congrArg String.toList h
  rw [toList_outlineLine, toList_outlineLine] at hchars
  have hwritten := List.append_cancel_right (List.append_cancel_left hchars)
  have hremark := Decl.not_remarked_text hdecl
  have hremark' := Decl.not_remarked_text hdecl'
  refine ⟨rfl, ?_⟩
  cases hcompanion : decl.companion?.isSome <;> cases hcompanion' : decl'.companion?.isSome <;>
    simp only [hcompanion, hcompanion', if_true, if_false, List.append_nil, Bool.false_eq_true]
      at hwritten
  · exact ⟨String.toList_inj.mp hwritten, rfl⟩
  · exact absurd ⟨_, hwritten.symm⟩ hremark
  · exact absurd ⟨_, hwritten⟩ hremark'
  · exact ⟨String.toList_inj.mp (List.append_cancel_right hwritten), rfl⟩

end Graph

end DeclGraph
