import EndpointControl.Store

/-!
# Contexts

Everything that has to do with a multiplexer – a factory, its boss, its workers,
its endpoints – stands in a context: the provider instance and the constraint
level it goes by. A factory gives its own context to its loops when it is built,
and an endpoint stands in that of the worker it is bound to. Two things share a
context when the provider is one instance and the levels are equal.
-/

namespace EndpointControl

/-- **What a thing goes by**: a provider instance and a constraint level. -/
structure Context where
  /-- The provider instance. -/
  provider : Provider
  /-- The constraint level. -/
  level : Level
  deriving DecidableEq, Repr

/-- **Shared contexts**: one provider instance and one level. -/
def Context.shares (a b : Context) : Bool := a.provider.same b.provider && a.level == b.level

/-- **What stands in a context.** -/
inductive Entity where
  /-- A factory. -/
  | factory (f : FactoryId)
  /-- A boss or a worker. -/
  | loop (l : LoopId)
  /-- An endpoint. -/
  | endpoint (e : EndpointId)
  deriving DecidableEq, Repr

/-- The context of a loop. -/
def Loop.context (l : Loop) : Context := ⟨l.provider, l.level⟩

/-- The context of an entity, if there is such a one. -/
def Store.context? (s : Store) : Entity → Option Context
  | .factory f => s.factories[f]?.map fun f => ⟨f.terms.provider, f.terms.level⟩
  | .loop l => (s.loop? l).map (·.context)
  | .endpoint e => s.endpoints[e]?.bind fun e => (s.loop? e.home).map (·.context)

@[simp] theorem Context.shares_self (c : Context) : c.shares c = true := by
  simp [Context.shares]

end EndpointControl
