import DeclGraph.Decl.Basic

/-!
# Signatures

Two methods clash when a caller could not tell them apart by what a signature
shows: the name, the type parameters, the names of the parameters and the
result. The types of the parameters are not part of it, and neither are the
annotations of the method.

Main results:

- `Param.alike_iff` and `MethodDecl.alike_iff` spell out the two relations.
-/

namespace DeclGraph

/-! ## Parameters -/

/-- Two parameters are alike when they have one name. -/
def Param.Alike (p q : Param) : Prop :=
  p.name = q.name

instance (p q : Param) : Decidable (p.Alike q) :=
  inferInstanceAs (Decidable (p.name = q.name))

/-! ## Methods -/

/-- What of a method decides whether another method duplicates it. -/
structure Signature where
  /-- The name of the method. -/
  name : Name
  /-- Its type parameters with their bounds. -/
  tparams : List TypeParam
  /-- The names of its parameters. -/
  params : List Name
  /-- The type of its result. -/
  result : TypeExpr
deriving DecidableEq

/-- The signature of a method. -/
def MethodDecl.signature (method : MethodDecl) : Signature where
  name := method.name
  tparams := method.tparams
  params := method.params.map Param.name
  result := method.result

/-- Two methods are alike when they have one signature. -/
def MethodDecl.Alike (m n : MethodDecl) : Prop :=
  m.signature = n.signature

instance (m n : MethodDecl) : Decidable (m.Alike n) :=
  inferInstanceAs (Decidable (m.signature = n.signature))

/-- Parameters are alike exactly when they have one name. -/
theorem Param.alike_iff {p q : Param} : p.Alike q ↔ p.name = q.name :=
  Iff.rfl

/-- Methods are alike exactly when they agree in name, type parameters, result and, parameter by
parameter, in the names of their parameters. -/
theorem MethodDecl.alike_iff {m n : MethodDecl} :
    m.Alike n ↔ m.name = n.name ∧ m.tparams = n.tparams ∧
      m.params.map Param.name = n.params.map Param.name ∧ m.result = n.result := by
  simp [MethodDecl.Alike, MethodDecl.signature]

end DeclGraph
