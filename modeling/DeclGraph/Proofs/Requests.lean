import DeclGraph.Graph.Merge
import DeclGraph.Proofs.Coherence

/-!
# Requests as elementary changes

What a granted request does is said here in terms of the views of a graph.  A
request for a package, class or object answers with the member that is indexed
under its key, or enlists a newcomer; the other requests enlist a leaf, modify a
declaration in its place, or detach a method.

Main results:

- Theorems `Graph.ensurePackage_eq`, `Graph.ensureClass_eq`, `Graph.ensureObject_eq`:
  three requests are one function `Graph.ensured` of the container and the key.
- Theorem `Graph.fits_newcomer`: a newcomer fits into its container.
- Theorems `Graph.addMember_eq` and `Graph.raiseIssued_eq`: two requests that are
  always granted to a container.
- Theorems `Graph.exists_of_issueName` and `Graph.exists_of_dropDuplicate`: what it
  takes for the others to be granted, and what they do then.
-/

namespace DeclGraph

/-! ## Running requests one after the other -/

namespace Build

variable {α β : Type}

theorem bind_of_ok {first : Build α} {next : α → Build β} {g g' : Graph} {a : α}
    (h : first g = .ok a g') : (first >>= next) g = next a g' := by
  change EStateM.bind first next g = next a g'
  simp [EStateM.bind, h]

/-- What comes next is not reached after a computation that broke off. -/
theorem bind_of_error {first : Build α} {g g' : Graph} {violation : Violation}
    (h : first g = .error violation g') (next : α → Build β) :
    (first >>= next) g = .error violation g' := by
  change EStateM.bind first next g = .error violation g'
  simp [EStateM.bind, h]

/-- What comes next sees of what came first only how it ended. -/
theorem bind_congr {first first' : Build α} {g g' : Graph} (h : first g = first' g')
    (next : α → Build β) : (first >>= next) g = (first' >>= next) g' := by
  change EStateM.bind first next g = EStateM.bind first' next g'
  simp [EStateM.bind, h]

/-- The graph that a computation leaves behind, whether or not it broke off. -/
def final (build : Build α) (g : Graph) : Graph :=
  match build g with
  | .ok _ g' => g'
  | .error _ g' => g'

theorem final_of_ok {build : Build α} {g g' : Graph} {a : α} (h : build g = .ok a g') :
    build.final g = g' := by
  simp [final, h]

theorem final_bind_of_ok {first : Build α} {next : α → Build β} {g g' : Graph} {a : α}
    (h : first g = .ok a g') : (first >>= next).final g = (next a).final g' := by
  simp only [final, bind_of_ok h]

theorem final_bind_of_error {first : Build α} (next : α → Build β) {g g' : Graph}
    {violation : Violation} (h : first g = .error violation g') :
    (first >>= next).final g = first.final g := by
  simp only [final, bind_of_error h, h]

theorem read_of_ok {answer : Type} (query : Graph → Except Violation answer) {g : Graph}
    {value : answer} (h : query g = .ok value) : read query g = .ok value g :=
  checked_of_ok h

theorem read_of_error {answer : Type} (query : Graph → Except Violation answer) {g : Graph}
    {violation : Violation} (h : query g = .error violation) :
    read query g = .error violation g :=
  checked_of_error h

theorem update_eq (change : Graph → Graph) (g : Graph) : update change g = .ok () (change g) :=
  rfl

/-- A computation never gives up a slot. -/
def Growing (build : Build α) : Prop :=
  ∀ g : Graph, g.size ≤ (build.final g).size

/-- What comes later gives up no slot that was filled before. -/
theorem size_final_le_bind {first : Build α} {next : α → Build β}
    (hnext : ∀ a, Growing (next a)) (g : Graph) :
    (first.final g).size ≤ ((first >>= next).final g).size := by
  cases h : first g with
  | ok a g' =>
      rw [final_bind_of_ok h, final_of_ok h]
      exact hnext a g'
  | error violation g' => exact Nat.le_of_eq (by rw [final_bind_of_error next h])

theorem growing_bind {first : Build α} {next : α → Build β} (hfirst : Growing first)
    (hnext : ∀ a, Growing (next a)) : Growing (first >>= next) :=
  fun g => Nat.le_trans (hfirst g) (size_final_le_bind hnext g)

/-- A request that was granted passed its check. -/
theorem exists_of_checked_eq_ok {found : Type} {check : Graph → Except Violation found}
    {act : found → Graph → α × Graph} {g g' : Graph} {a : α}
    (h : checked check act g = .ok a g') :
    ∃ value, check g = .ok value ∧ act value g = (a, g') := by
  cases hcheck : check g with
  | error violation =>
      rw [checked_of_error hcheck] at h
      contradiction
  | ok value =>
      rw [checked_of_ok hcheck] at h
      injection h with ha hg
      exact ⟨value, rfl, Prod.ext ha hg⟩

/-- A computation gives up no slot and fills `n` new ones at most. -/
def Fills (n : Nat) (build : Build α) : Prop :=
  ∀ g : Graph, g.size ≤ (build.final g).size ∧ (build.final g).size ≤ g.size + n

theorem Fills.growing {n : Nat} {build : Build α} (h : Fills n build) : Growing build :=
  fun g => (h g).1

theorem Fills.mono {m n : Nat} {build : Build α} (h : Fills m build) (hle : m ≤ n) :
    Fills n build :=
  fun g => ⟨(h g).1, Nat.le_trans (h g).2 (Nat.add_le_add_left hle _)⟩

theorem fills_pure (a : α) : Fills 0 (pure a : Build α) :=
  fun _ => ⟨Nat.le_refl _, Nat.le_refl _⟩

/-- One after the other, two computations fill no more slots than each of them by itself. -/
theorem fills_bind {m n : Nat} {first : Build α} {next : α → Build β} (hfirst : Fills m first)
    (hnext : ∀ a, Fills n (next a)) : Fills (m + n) (first >>= next) := by
  intro g
  refine ⟨growing_bind hfirst.growing (fun a => (hnext a).growing) g, ?_⟩
  have hfilled := (hfirst g).2
  cases h : first g with
  | ok a g' =>
      rw [final_of_ok h] at hfilled
      rw [final_bind_of_ok h]
      have hlater := (hnext a g').2
      omega
  | error violation g' =>
      rw [final_bind_of_error next h]
      omega

theorem fills_checked {n : Nat} {found : Type} {check : Graph → Except Violation found}
    {act : found → Graph → α × Graph}
    (hact : ∀ value g, g.size ≤ (act value g).2.size ∧ (act value g).2.size ≤ g.size + n) :
    Fills n (checked check act) := by
  intro g
  cases h : check g with
  | error violation => simp [final, checked_of_error h]
  | ok value =>
      rw [final_of_ok (checked_of_ok h)]
      exact hact value g

theorem fills_read {answer : Type} (query : Graph → Except Violation answer) :
    Fills 0 (read query) :=
  fills_checked fun _ _ => ⟨Nat.le_refl _, Nat.le_refl _⟩

end Build

namespace Graph

/-! ## Scopes -/

variable {g : Graph} {container : DeclId}

/-- A container shows its scope, and the views of it are those of its scope. -/
theorem exists_scope (h : (g.key? container).isSome) :
    ∃ scope, g.scope container = .ok scope ∧ g.memberIds container = scope.members ∧
      g.issued container = scope.issued ∧
      ∀ kind name, scope.find? kind name = g.lookup container (kind, name) := by
  rcases Option.isSome_iff_exists.mp h with ⟨key, hkey⟩
  rcases Option.bind_eq_some_iff.mp hkey with ⟨decl, hdecl, hdeclKey⟩
  have hcontainer : decl.scope?.isSome := by
    rw [Decl.isSome_scope?, ← Decl.isSome_key?, hdeclKey, Option.isSome_some]
  rcases Option.isSome_iff_exists.mp hcontainer with ⟨scope, hscope⟩
  refine ⟨scope, ?_, ?_, ?_, ?_⟩
  · simp [Graph.scope, hdecl, hscope]
  · simp [memberIds, hdecl, Decl.memberIds, hscope]
  · simp [issued, hdecl, Decl.issued, hscope]
  · intro kind name
    simp [lookup, index, hdecl, Decl.index, hscope, Scope.find?]

/-- Only a container shows a scope. -/
theorem isSome_key?_of_scope {scope : Scope} (h : g.scope container = .ok scope) :
    (g.key? container).isSome := by
  unfold Graph.scope at h
  split at h
  · contradiction
  · next decl hdecl =>
      split at h
      · contradiction
      · next found hfound =>
          have hcontainer : decl.key?.isSome := by
            rw [Decl.isSome_key?, ← Decl.isSome_scope?, hfound, Option.isSome_some]
          simpa [key?, hdecl] using hcontainer

/-- The members that a container shows are its members. -/
theorem memberIds_of_members {ids : List DeclId} (h : g.members container = .ok ids) :
    g.memberIds container = ids := by
  cases hscope : g.scope container with
  | error violation => simp [members, hscope, Except.map] at h
  | ok scope =>
      rcases exists_scope (isSome_key?_of_scope hscope) with ⟨found, hfound, hids, -⟩
      obtain rfl : scope = found := Except.ok.inj (hscope.symm.trans hfound)
      rw [hids]
      simpa [members, hscope, Except.map] using h

/-- A container shows its members, and nothing else shows any. -/
theorem members_eq_ok_iff {ids : List DeclId} :
    g.members container = .ok ids ↔ (g.key? container).isSome ∧ ids = g.memberIds container := by
  constructor
  · intro h
    cases hscope : g.scope container with
    | error violation => simp [members, hscope, Except.map] at h
    | ok scope => exact ⟨isSome_key?_of_scope hscope, (memberIds_of_members h).symm⟩
  · rintro ⟨hcontainer, rfl⟩
    obtain ⟨scope, hscope, hids, -⟩ := exists_scope hcontainer
    rw [members, hscope, hids]
    rfl

/-- A container answers from its index, and nothing else answers. -/
theorem find?_eq_ok_iff {kind : Kind} {name : Name} {found : Option DeclId} :
    g.find? kind container name = .ok found ↔
      (g.key? container).isSome ∧ found = g.lookup container (kind, name) := by
  constructor
  · intro h
    cases hscope : g.scope container with
    | error violation => simp [find?, hscope, Except.map] at h
    | ok scope =>
        have hcontainer := isSome_key?_of_scope hscope
        obtain ⟨shown, hshown, -, -, hfind⟩ := exists_scope hcontainer
        obtain rfl : scope = shown := Except.ok.inj (hscope.symm.trans hshown)
        rw [find?, hscope] at h
        exact ⟨hcontainer, (Except.ok.inj h).symm.trans (hfind kind name)⟩
  · rintro ⟨hcontainer, rfl⟩
    obtain ⟨scope, hscope, -, -, hfind⟩ := exists_scope hcontainer
    rw [find?, hscope, ← hfind]
    rfl

theorem issuingScope_of_scope {scope : Scope} (h : g.scope container = .ok scope) :
    g.issuingScope container = .ok scope := by
  unfold Graph.scope at h
  split at h
  · contradiction
  · next decl hdecl =>
      split at h
      · contradiction
      · next found hfound =>
          simp only [Except.ok.injEq] at h
          simp [issuingScope, scope?, hdecl, hfound, h]

/-- Only a container shows the scope that it issues names from. -/
theorem issued_of_issuingScope {scope : Scope} (h : g.issuingScope container = .ok scope) :
    (g.key? container).isSome ∧ g.issued container = scope.issued := by
  unfold issuingScope at h
  split at h
  · contradiction
  · next found hfound =>
      obtain rfl : found = scope := Except.ok.inj h
      rcases Option.bind_eq_some_iff.mp hfound with ⟨decl, hdecl, hscope⟩
      have hcontainer : decl.key?.isSome := by
        rw [Decl.isSome_key?, ← Decl.isSome_scope?, hscope, Option.isSome_some]
      exact ⟨by simpa [key?, hdecl] using hcontainer, by simp [issued, hdecl, Decl.issued, hscope]⟩

/-- A package shows its scope to packages. -/
theorem packageScope_of_scope {scope : Scope} (h : g.scope container = .ok scope)
    (hkind : g.kind? container = some .package) : g.packageScope container = .ok scope := by
  rcases Option.map_eq_some_iff.mp hkind with ⟨decl, hdecl, hdeclKind⟩
  cases decl <;> simp [Decl.kind] at hdeclKind
  next package =>
    have hscope : package.scope = scope := by
      simpa [Graph.scope, hdecl, Decl.scope?] using h
    simp [packageScope, package?, hdecl, Decl.package?, hscope]

theorem kind?_of_packageScope {scope : Scope} (h : g.packageScope container = .ok scope) :
    g.kind? container = some .package := by
  unfold packageScope at h
  split at h
  · contradiction
  · next package hpackage =>
      rcases Option.bind_eq_some_iff.mp hpackage with ⟨decl, hdecl, hdeclPackage⟩
      cases decl <;> simp [Decl.package?] at hdeclPackage
      simp [kind?, hdecl, Decl.kind]

/-! ## Packages, classes and objects -/

/-- A container as it is made on the first request for it. -/
def bare (key : Key) (companion : Option DeclId) : Decl :=
  match key.1 with
  | .klass => .klass { name := key.2, companion }
  | .object => .object { name := key.2, companion }
  | _ => .package { name := key.2 }

/-- What is enlisted in a container on the first request for a key. -/
def newcomer (g : Graph) (container : DeclId) (key : Key) : Decl :=
  bare key (key.partner?.bind (g.lookup container))

/-- The member with a key, made if there is none yet, and the graph after that. -/
def ensured (g : Graph) (container : DeclId) (key : Key) : DeclId × Graph :=
  match g.lookup container key with
  | some id => (id, g)
  | none => (g.nextId, g.enlist container (g.newcomer container key))

theorem key?_bare {key : Key} (h : key.1.isContainer) (companion : Option DeclId) :
    (bare key companion).key? = some key := by
  rcases key with ⟨kind, name⟩
  cases kind <;> first | rfl | simp [Kind.isContainer] at h

theorem header_bare (key : Key) (companion : Option DeclId) :
    (bare key companion).header = bare key none := by
  rcases key with ⟨kind, name⟩
  cases kind <;> rfl

/-- A newcomer fits into its container. -/
theorem fits_newcomer {key : Key} (hcontainer : (g.key? container).isSome)
    (hkey : key.1.isContainer) (hnew : g.lookup container key = none)
    (hpackage : key.1 = .package → g.kind? container = some .package) :
    Fits g container (g.newcomer container key) where
  isContainer := hcontainer
  memberIds := by
    rcases key with ⟨kind, name⟩
    cases kind <;> rfl
  index := by
    rcases key with ⟨kind, name⟩
    cases kind <;> rfl
  fresh := by
    intro other hother
    rw [newcomer, key?_bare hkey] at hother
    rw [← Option.some.inj hother, hnew]
  companion? := by
    rw [newcomer, key?_bare hkey]
    rcases key with ⟨kind, name⟩
    cases kind <;> rfl
  package := by
    intro hkind
    rw [newcomer, Decl.kind_of_key? (key?_bare hkey _)] at hkind
    exact hpackage hkind

/-- A newcomer that is linked to nothing takes its place without telling anybody. -/
theorem attach_eq_enlist {decl : Decl} (h : decl.companion? = none) (g : Graph)
    (container : DeclId) : g.attach container decl = g.enlist container decl := by
  simp [enlist, linkBack, h]

theorem ensurePackage_eq (hkind : g.kind? container = some .package) (name : Name) :
    ensurePackage container name g =
      .ok (g.ensured container (.package, name)).1 (g.ensured container (.package, name)).2 := by
  rcases exists_scope (isSome_key?_of_package hkind) with ⟨scope, hscope, -, -, hfind⟩
  rw [ensurePackage, Build.checked_of_ok (packageScope_of_scope hscope hkind)]
  cases hlookup : g.lookup container (.package, name) with
  | some id => simp [hfind, ensured, hlookup]
  | none =>
      have hnewcomer : g.newcomer container (.package, name) = .package { name } := rfl
      have hattach : g.attach container (.package { name }) =
          g.enlist container (.package { name }) := attach_eq_enlist rfl g container
      simp [hfind, ensured, hlookup, hnewcomer, hattach]

theorem ensureClass_eq (hcontainer : (g.key? container).isSome) (name : Name) :
    ensureClass container name g =
      .ok (g.ensured container (.klass, name)).1 (g.ensured container (.klass, name)).2 := by
  rcases exists_scope hcontainer with ⟨scope, hscope, -, -, hfind⟩
  rw [ensureClass, Build.checked_of_ok hscope]
  cases hlookup : g.lookup container (.klass, name) with
  | some id => simp [hfind, ensured, hlookup]
  | none =>
      simp only [hfind, ensured, hlookup]
      rfl

theorem ensureObject_eq (hcontainer : (g.key? container).isSome) (name : Name) :
    ensureObject container name g =
      .ok (g.ensured container (.object, name)).1 (g.ensured container (.object, name)).2 := by
  rcases exists_scope hcontainer with ⟨scope, hscope, -, -, hfind⟩
  rw [ensureObject, Build.checked_of_ok hscope]
  cases hlookup : g.lookup container (.object, name) with
  | some id => simp [hfind, ensured, hlookup]
  | none =>
      simp only [hfind, ensured, hlookup]
      rfl

/-! ## Leaves -/

/-- A declaration that is no container fits into every container. -/
theorem fits_leaf {decl : Decl} (hcontainer : (g.key? container).isSome)
    (hleaf : decl.key? = none) : Fits g container decl where
  isContainer := hcontainer
  memberIds := Decl.memberIds_of_key?_eq_none hleaf
  index := by cases decl <;> first | rfl | simp [Decl.key?] at hleaf
  fresh := by
    intro key hkey
    rw [hleaf] at hkey
    contradiction
  companion? := by
    rw [hleaf]
    cases decl <;> first | rfl | simp [Decl.key?] at hleaf
  package := by
    intro hkind
    cases decl <;> simp [Decl.kind] at hkind
    simp [Decl.key?] at hleaf

theorem companion?_leaf {decl : Decl} (hleaf : decl.key? = none) : decl.companion? = none := by
  cases decl <;> first | rfl | simp [Decl.key?] at hleaf

theorem addMember_eq (hcontainer : (g.key? container).isSome) {decl : Decl}
    (hleaf : decl.key? = none) :
    addMember container decl g = .ok g.nextId (g.enlist container decl) := by
  rcases exists_scope hcontainer with ⟨scope, hscope, -⟩
  rw [addMember, Build.checked_of_ok hscope, attach_eq_enlist (companion?_leaf hleaf)]

/-! ## Counts of issued names -/

theorem samePlace_mapScope_issue (decl : Decl) :
    SamePlace (decl.mapScope Scope.issue) decl := by
  cases decl <;> exact ⟨rfl, rfl, rfl, rfl, rfl⟩

theorem raiseIssued_eq (hcontainer : (g.key? container).isSome) (n : UInt32) :
    raiseIssued container n g =
      .ok () (g.modify container (Decl.mapScope (Scope.raise · n))) := by
  rcases exists_scope hcontainer with ⟨scope, hscope, -⟩
  rw [raiseIssued, Build.checked_of_ok (issuingScope_of_scope hscope)]

/-- A container that issued a name had one left, and counts it from then on. -/
theorem exists_of_issueName {name : Name} {g' : Graph} (h : issueName container g = .ok name g') :
    (g.key? container).isSome ∧ (g.issued container).toNat + 1 < UInt32.size ∧
      name = Name.anonymous (g.issued container + 1) ∧
      g' = g.modify container (Decl.mapScope Scope.issue) := by
  rcases Build.exists_of_checked_eq_ok h with ⟨scope, hcheck, hact⟩
  unfold unspentScope at hcheck
  split at hcheck
  · contradiction
  · next found hfound =>
      split at hcheck
      · next hleft =>
          obtain rfl : found = scope := Except.ok.inj hcheck
          have hissued := issued_of_issuingScope hfound
          rw [hissued.2]
          injection hact with hname hg'
          exact ⟨hissued.1, hleft, hname.symm, hg'.symm⟩
      · contradiction

/-! ## Duplicate methods -/

/-- Of a method it is asked whether a container holds it and another one like it; of anything else
nothing is asked. -/
theorem isDuplicate_eq_ok_iff {id : DeclId} {duplicate : Bool} :
    g.isDuplicate container id = .ok duplicate ↔
      ((g.method? id).isSome → (g.key? container).isSome) ∧
        ((g.method? id).any fun method => (g.memberIds container).contains id &&
          g.anyAlike (g.memberIds container) id method) = duplicate := by
  unfold isDuplicate
  cases hmethod : g.method? id with
  | none => simp
  | some method =>
      cases hmembers : g.members container with
      | ok ids =>
          obtain ⟨hcontainer, rfl⟩ := members_eq_ok_iff.mp hmembers
          simp [Except.map, hcontainer]
      | error violation =>
          have hnone : ¬(g.key? container).isSome := by
            intro hcontainer
            rw [members_eq_ok_iff.mpr ⟨hcontainer, rfl⟩] at hmembers
            contradiction
          simp [Except.map, hnone]

/-- Whatever `dropDuplicate` takes out is a method that was a member of the container. -/
theorem exists_of_dropDuplicate (hg : Coherent g) {id : DeclId} {dropped : Bool} {g' : Graph}
    (h : dropDuplicate container id g = .ok dropped g') :
    (dropped = false ∧ g' = g) ∨
      (dropped = true ∧ g.owner? id = some container ∧ g.kind? id = some .method ∧
        g' = g.detach container id) := by
  rcases Build.exists_of_checked_eq_ok h with ⟨duplicate, hcheck, hact⟩
  injection hact with hdropped hg'
  subst hdropped
  cases duplicate with
  | false => exact Or.inl ⟨rfl, hg'.symm⟩
  | true =>
      right
      obtain ⟨method, hmethod, hheld⟩ :=
        (Option.any_eq_true _ _).mp (isDuplicate_eq_ok_iff.mp hcheck).2
      have hkind := isSome_method?_iff.mp (Option.isSome_of_eq_some hmethod)
      have hmember : id ∈ g.memberIds container := by
        rw [Bool.and_eq_true] at hheld
        exact List.contains_iff_mem.mp hheld.1
      exact ⟨rfl, hg.mem_memberIds.mp hmember, hkind, hg'.symm⟩

end Graph
end DeclGraph
