/-!
# Multiplexer providers

A provider opens multiplexers, and a factory is tied to one provider for life.
Which provider that is, is a question of identity and not of name: two providers
may describe themselves alike and still be two. So a provider is a `key`, which
stands for the instance, together with the `Identity` it shows, which is what
defect rules are written about and what messages print.
-/

namespace EndpointControl

/-- **How a provider describes itself**: a name and, where it is known, the
version of the primitive behind it. An empty version is a version. -/
structure Identity where
  /-- The name of the readiness primitive. -/
  name : String
  /-- The version, if the provider states one. -/
  version : Option String
  deriving DecidableEq, Repr

/-- The identity as it is printed: the name, then a slash and the version if
there is one. -/
def Identity.text (i : Identity) : String :=
  match i.version with
  | none => i.name
  | some v => i.name ++ "/" ++ v

/-- **A provider instance.** The key names the instance; the identity is what the
instance says about itself. -/
structure Provider where
  /-- Which instance this is. -/
  key : Nat
  /-- What the instance says it is. -/
  identity : Identity
  deriving DecidableEq, Repr

/-- The two handles lead to one instance. Equal descriptions do not suffice. -/
def Provider.same (a b : Provider) : Bool := a.key == b.key

@[simp] theorem Provider.same_self (p : Provider) : p.same p = true := by
  simp [Provider.same]

/-- **A multiplexer**: the provider instance that opened it, and its number among
the multiplexers of that provider. -/
structure Multiplexer where
  /-- The key of the provider that opened it. -/
  provider : Nat
  /-- Its number among the multiplexers of that provider. -/
  number : Nat
  deriving DecidableEq, Repr

end EndpointControl
