import EndpointControl.Proofs.PassageSteps
import EndpointControl.Proofs.Tally

/-!
# The account of an endpoint

All that matters about an endpoint at a time fits into an `Account`: how much of
it is at which stage, over all threads and queues; its state; how many attempts
have been accepted and how often it has been counted so far; and whether its boss
has been told to end. A step of the machine is a leg, and a leg is a booking on
the account (`Machine.Advance.booked`), so what the procedures look like no longer
matters here.

The account of a stream endpoint goes through four phases. It is *fresh* until an
attempt is accepted; then the attempt is *under way*; in the end it is *through*
or *over*. An accepted attempt is given up only once the boss has been told to
end, and then the boss accepts no other: this is why an endpoint that is open
again is never taken up a second time.
-/

namespace EndpointControl

/-- **What there is to know about an endpoint.** -/
structure Account where
  /-- How much of it is at each stage. -/
  tokens : Stage → Nat
  /-- Its state, once it has come about. -/
  state : Option State
  /-- Its flavor, once it has come about. -/
  flavor : Option Flavor
  /-- How many attempts have been accepted. -/
  accepted : Nat
  /-- How often it has been counted. -/
  counted : Nat
  /-- Its boss has been told to end, or there is none. -/
  told : Prop

namespace Account

variable {a a' : Account} {leg : Leg}

/-- **A leg is a booking.** -/
structure Booked (a : Account) (leg : Leg) (a' : Account) : Prop where
  tokens : ∀ σ, a'.tokens σ + leg.takes.count σ = a.tokens σ + leg.puts.count σ
  state : leg.Turns a.state a'.state
  guard : leg.Guard a.told
  founds : leg.Founds a.flavor a'.flavor
  accepted : a'.accepted = a.accepted + leg.takes.count .committed
  counted : a'.counted = a.counted + leg.takes.count .counting
  told : a.told → a'.told

/-! ## The phases -/

/-- Not yet come about. -/
structure Unborn (a : Account) : Prop where
  state : a.state = none
  tokens : ∀ σ, a.tokens σ = 0
  accepted : a.accepted = 0
  counted : a.counted = 0

/-- What clients have in their hands. -/
def inHand (a : Account) : Nat := a.tokens .entering + a.tokens .committed + a.tokens .dropping

/-- **No attempt has been accepted yet.** A client has one in hand exactly while
the endpoint is connecting, or has been closed meanwhile. -/
structure Fresh (a : Account) : Prop where
  travelling : a.tokens .travelling = 0
  refused : a.tokens .refused = 0
  counting : a.tokens .counting = 0
  accepted : a.accepted = 0
  counted : a.counted = 0
  state : (a.state = some .opened ∧ a.inHand = 0) ∨ (a.state = some .connecting ∧ a.inHand = 1)
    ∨ (a.state = some .closed ∧ a.inHand ≤ 1)

/-- **An attempt has been accepted and is on its way.** -/
structure UnderWay (a : Account) : Prop where
  travelling : a.tokens .travelling = 1
  inHand : a.inHand = 0
  refused : a.tokens .refused = 0
  counting : a.tokens .counting = 0
  accepted : a.accepted = 1
  counted : a.counted = 0
  state : a.state = some .connecting ∨ a.state = some .closed

/-- **The attempt got through.** -/
structure Through (a : Account) : Prop where
  travelling : a.tokens .travelling = 0
  inHand : a.inHand = 0
  refused : a.tokens .refused = 0
  counted : a.tokens .counting + a.counted = 1
  accepted : a.accepted = 1
  state : a.state = some .registered ∨ a.state = some .closed

/-- **The attempt is over.** It was given up, which happens only once the boss has
been told to end, or the endpoint was closed. -/
structure Over (a : Account) : Prop where
  travelling : a.tokens .travelling = 0
  committed : a.tokens .committed = 0
  counting : a.tokens .counting = 0
  accepted : a.accepted = 1
  counted : a.counted = 0
  told : a.told ∨ (a.state = some .closed ∧ a.tokens .entering = 0)
  state : a.state = some .opened ∨ a.state = some .closed
    ∨ (a.state = some .connecting ∧ 1 ≤ a.tokens .entering + a.tokens .dropping)

/-- **A datagram endpoint** is registered at most once. -/
structure Plain (a : Account) : Prop where
  told : a.told
  committed : a.tokens .committed = 0
  accepted : a.accepted = 0
  once : a.tokens .travelling + a.tokens .counting + a.counted ≤ 1
  born : a.state ≠ none
  registered : a.state = some .registered → a.tokens .counting + a.counted = 1
  connecting : a.state = some .connecting → 1 ≤ a.tokens .entering + a.tokens .dropping

/-- **The account of a stream endpoint is in one of the four phases.** -/
def Streaming (a : Account) : Prop := a.Fresh ∨ a.UnderWay ∨ a.Through ∨ a.Over

/-- **The account is in order.** -/
def InOrder (a : Account) : Prop :=
  match a.flavor with
  | none => a.Unborn
  | some .client => a.Streaming
  | some .datagram => a.Plain

/-! ## From phase to phase -/

/-- Nothing is taken from where nothing is. -/
theorem Booked.absurd_of_takes (b : a.Booked leg a') {σ : Stage} (h : a.tokens σ = 0)
    (ht : 0 < leg.takes.count σ) (hp : leg.puts.count σ = 0) {p : Prop} : p := by
  have hb := b.tokens σ
  omega

/-- **A fresh account stays fresh until an attempt is accepted.** -/
theorem Fresh.booked (h : a.Fresh) (b : a.Booked leg a') (hf : a.flavor ≠ none) :
    a'.Fresh ∨ a'.UnderWay := by
  have hentering := b.tokens .entering
  have hcommitted := b.tokens .committed
  have htravelling := b.tokens .travelling
  have hdropping := b.tokens .dropping
  have hrefused := b.tokens .refused
  have hcounting := b.tokens .counting
  obtain ⟨htr, href, hcnt, hacc, hctd, hstate⟩ := h
  cases leg with
  | abandon | refuse | register | pass => exact b.absurd_of_takes htr Nat.one_pos rfl
  | redrop | forget => exact b.absurd_of_takes href Nat.one_pos rfl
  | count => exact b.absurd_of_takes hcnt Nat.one_pos rfl
  | enroll fl => exact absurd b.founds.1 hf
  -- the client's attempt goes from its hands to the boss
  | accept =>
    have hst := b.state
    have hac := b.accepted
    have hct := b.counted
    simp [Leg.takes, Leg.puts, Leg.Turns, Account.inHand] at *
    refine .inr
      ⟨by omega, by rw [Account.inHand]; omega, by omega, by omega, by omega, by omega, ?_⟩
    rw [hst]
    rcases hstate with ⟨-, hz⟩ | ⟨h, -⟩ | ⟨h, -⟩
    · omega
    · exact .inl h
    · exact .inr h
  | idle | begin | commit | acknowledge | turnAway | revert | close =>
    have hst := b.state
    have hac := b.accepted
    have hct := b.counted
    simp [Leg.takes, Leg.puts, Leg.Turns, Account.inHand] at *
    refine .inl ⟨by omega, by omega, by omega, by omega, by omega, ?_⟩
    rw [Account.inHand]
    grind

/-- **An attempt under way gets through, or is over**: it is over when a loop that
has been told to end gives it up, and when the endpoint turns out to be closed. -/
theorem UnderWay.booked (h : a.UnderWay) (b : a.Booked leg a') (hf : a.flavor ≠ none) :
    a'.UnderWay ∨ a'.Through ∨ a'.Over := by
  have hentering := b.tokens .entering
  have hcommitted := b.tokens .committed
  have htravelling := b.tokens .travelling
  have hdropping := b.tokens .dropping
  have hrefused := b.tokens .refused
  have hcounting := b.tokens .counting
  have hst := b.state
  have hac := b.accepted
  have hct := b.counted
  obtain ⟨htr, hhand, href, hcnt, hacc, hctd, hstate⟩ := h
  rw [Account.inHand] at hhand
  cases leg with
  | commit | turnAway =>
    exact b.absurd_of_takes (show a.tokens .entering = 0 by omega) Nat.one_pos rfl
  | accept => exact b.absurd_of_takes (show a.tokens .committed = 0 by omega) Nat.one_pos rfl
  | revert => exact b.absurd_of_takes (show a.tokens .dropping = 0 by omega) Nat.one_pos rfl
  | redrop | forget => exact b.absurd_of_takes href Nat.one_pos rfl
  | count => exact b.absurd_of_takes hcnt Nat.one_pos rfl
  | enroll fl => exact absurd b.founds.1 hf
  | begin =>
    rcases hstate with h | h <;> rw [h] at hst <;> exact absurd hst.1 nofun
  -- given up on the way: the boss has been told to end
  | abandon | refuse =>
    have htold := b.told b.guard
    simp [Leg.takes, Leg.puts, Leg.Turns] at *
    refine .inr (.inr ⟨by omega, by omega, by omega, by omega, by omega, .inl htold, ?_⟩)
    grind
  -- the worker finds the endpoint closed
  | pass =>
    simp [Leg.takes, Leg.puts, Leg.Turns] at *
    refine .inr (.inr ⟨by omega, by omega, by omega, by omega, by omega, .inr ?_, ?_⟩)
    · exact ⟨hst.2.trans hst.1, by omega⟩
    · exact .inr (.inl (hst.2.trans hst.1))
  | register =>
    simp [Leg.takes, Leg.puts, Leg.Turns] at *
    exact .inr (.inl
      ⟨by omega, by rw [Account.inHand]; omega, by omega, by omega, by omega, .inl hst.2⟩)
  | idle | acknowledge | close =>
    simp [Leg.takes, Leg.puts, Leg.Turns] at *
    refine .inl
      ⟨by omega, by rw [Account.inHand]; omega, by omega, by omega, by omega, by omega, ?_⟩
    grind

theorem Through.booked (h : a.Through) (b : a.Booked leg a') (hf : a.flavor ≠ none) :
    a'.Through := by
  have hentering := b.tokens .entering
  have hcommitted := b.tokens .committed
  have htravelling := b.tokens .travelling
  have hdropping := b.tokens .dropping
  have hrefused := b.tokens .refused
  have hcounting := b.tokens .counting
  have hst := b.state
  have hac := b.accepted
  have hct := b.counted
  obtain ⟨htr, hhand, href, hctd, hacc, hstate⟩ := h
  rw [Account.inHand] at hhand
  cases leg with
  | commit | turnAway =>
    exact b.absurd_of_takes (show a.tokens .entering = 0 by omega) Nat.one_pos rfl
  | accept => exact b.absurd_of_takes (show a.tokens .committed = 0 by omega) Nat.one_pos rfl
  | revert => exact b.absurd_of_takes (show a.tokens .dropping = 0 by omega) Nat.one_pos rfl
  | abandon | refuse | register | pass => exact b.absurd_of_takes htr Nat.one_pos rfl
  | redrop | forget => exact b.absurd_of_takes href Nat.one_pos rfl
  | enroll fl => exact absurd b.founds.1 hf
  | begin =>
    rcases hstate with h | h <;> rw [h] at hst <;> exact absurd hst.1 nofun
  | idle | acknowledge | close | count =>
    simp [Leg.takes, Leg.puts, Leg.Turns] at *
    refine ⟨by omega, by rw [Account.inHand]; omega, by omega, by omega, by omega, ?_⟩
    grind

/-- **What is over stays over**: the boss has been told to end, so that no attempt
comes through to it any more. -/
theorem Over.booked (h : a.Over) (b : a.Booked leg a') (hf : a.flavor ≠ none) : a'.Over := by
  have hentering := b.tokens .entering
  have hcommitted := b.tokens .committed
  have htravelling := b.tokens .travelling
  have hdropping := b.tokens .dropping
  have hcounting := b.tokens .counting
  have hst := b.state
  have hac := b.accepted
  have hct := b.counted
  have htold := b.told
  obtain ⟨htr, hcom, hcnt, hacc, hctd, htld, hstate⟩ := h
  cases leg with
  | accept => exact b.absurd_of_takes hcom Nat.one_pos rfl
  | abandon | refuse | register | pass => exact b.absurd_of_takes htr Nat.one_pos rfl
  | count => exact b.absurd_of_takes hcnt Nat.one_pos rfl
  | enroll fl => exact absurd b.founds.1 hf
  -- a client can commit itself only while the boss has not been told to end
  | commit =>
    rcases htld with htld | ⟨-, hz⟩
    · exact absurd htld b.guard
    · exact b.absurd_of_takes hz Nat.one_pos rfl
  | idle | begin | acknowledge | turnAway | redrop | forget | revert | close =>
    simp [Leg.takes, Leg.puts, Leg.Turns] at *
    refine ⟨by omega, by omega, by omega, by omega, by omega, ?_, ?_⟩
    · grind
    · grind

theorem Plain.booked (h : a.Plain) (b : a.Booked leg a') (hf : a.flavor ≠ none) : a'.Plain := by
  have hentering := b.tokens .entering
  have hdropping := b.tokens .dropping
  have hcommitted := b.tokens .committed
  have htravelling := b.tokens .travelling
  have hcounting := b.tokens .counting
  have hst := b.state
  have hac := b.accepted
  have hct := b.counted
  have htold := b.told
  obtain ⟨htld, hcom, hacc, honce, hborn, hreg, hconn⟩ := h
  cases leg with
  | accept => exact b.absurd_of_takes hcom Nat.one_pos rfl
  -- there is no boss to take an attempt
  | commit => exact absurd htld b.guard
  | enroll fl => exact absurd b.founds.1 hf
  | _ =>
    simp [Leg.takes, Leg.puts, Leg.Turns] at *
    refine ⟨htold htld, by omega, by omega, by omega, ?_, ?_, ?_⟩
    · grind
    · grind
    · grind

/-- An endpoint that there is has its flavor for good. -/
theorem Booked.flavor_eq (b : a.Booked leg a') (hf : a.flavor ≠ none) : a'.flavor = a.flavor := by
  have h := b.founds
  cases leg with
  | enroll fl => exact absurd h.1 hf
  | _ => exact h

theorem Streaming.booked (h : a.Streaming) (b : a.Booked leg a') (hf : a.flavor ≠ none) :
    a'.Streaming := by
  rcases h with h | h | h | h
  · rcases h.booked b hf with h | h
    · exact .inl h
    · exact .inr (.inl h)
  · exact .inr (h.booked b hf)
  · exact .inr (.inr (.inl (h.booked b hf)))
  · exact .inr (.inr (.inr (h.booked b hf)))

/-- **Before an endpoint comes about, nothing can be booked for it but that.** -/
theorem Unborn.booked (h : a.Unborn) (b : a.Booked leg a') (hf : a.flavor = none)
    (htold : a'.flavor = some .datagram → a'.told) : a'.InOrder := by
  obtain ⟨hstate, hzero, hacc, hctd⟩ := h
  have hst := b.state
  have hac := b.accepted
  have hct := b.counted
  have htok := b.tokens
  simp only [hzero, Nat.zero_add] at htok
  cases leg with
  | commit | turnAway => exact b.absurd_of_takes (hzero .entering) Nat.one_pos rfl
  | accept => exact b.absurd_of_takes (hzero .committed) Nat.one_pos rfl
  | acknowledge => exact b.absurd_of_takes (hzero .acknowledging) Nat.one_pos rfl
  | abandon | refuse | register | pass =>
    exact b.absurd_of_takes (hzero .travelling) Nat.one_pos rfl
  | redrop | forget => exact b.absurd_of_takes (hzero .refused) Nat.one_pos rfl
  | revert => exact b.absurd_of_takes (hzero .dropping) Nat.one_pos rfl
  | count => exact b.absurd_of_takes (hzero .counting) Nat.one_pos rfl
  | begin => cases hstate.symm.trans hst.1
  | close => exact absurd hstate hst.1
  | idle =>
    rw [InOrder, show a'.flavor = none from b.founds.trans hf]
    exact ⟨hst.trans hstate, htok, hac.trans hacc, hct.trans hctd⟩
  -- a stream begins fresh, a datagram endpoint with its registration on the way
  | enroll fl =>
    have hfl : a'.flavor = some fl := b.founds.2
    rw [InOrder, hfl]
    cases fl with
    | client =>
      refine .inl ⟨htok _, htok _, htok _, hac.trans hacc, hct.trans hctd, .inl ⟨hst.2, ?_⟩⟩
      have hentering := htok .entering
      have hcommitted := htok .committed
      have hdropping := htok .dropping
      simp [Leg.takes, Leg.puts] at hentering hcommitted hdropping
      rw [inHand, hentering, hcommitted, hdropping]
    | datagram =>
      have htravelling := htok .travelling
      have hcounting := htok .counting
      have hcommitted := htok .committed
      simp [Leg.takes, Leg.puts] at hac hct htravelling hcounting hcommitted
      refine ⟨htold hfl, hcommitted, hac.trans hacc, by omega, ?_, ?_, ?_⟩
      all_goals
        rw [hst.2]
        rintro ⟨⟩

/-- **A booking leaves the account in order.** -/
theorem InOrder.booked (h : a.InOrder) (b : a.Booked leg a')
    (htold : a'.flavor = some .datagram → a'.told) : a'.InOrder := by
  unfold InOrder at h
  -- the flavor says which invariant it is, and no leg but the first changes it
  split at h
  · rename_i hf
    exact h.booked b hf htold
  · rename_i hf
    rw [InOrder, b.flavor_eq (by rw [hf]; nofun), hf]
    exact h.booked b (by rw [hf]; nofun)
  · rename_i hf
    rw [InOrder, b.flavor_eq (by rw [hf]; nofun), hf]
    exact h.booked b (by rw [hf]; nofun)

/-! ## What an account in order says -/

/-- **Nothing is accepted or counted twice**, and a stream endpoint is not counted
before an attempt at it has been accepted. -/
theorem InOrder.at_most_once (h : a.InOrder) :
    a.counted ≤ 1 ∧ a.accepted ≤ 1 ∧ (a.flavor = some .client → a.counted ≤ a.accepted) := by
  unfold InOrder at h
  split at h
  case h_1 =>
    have ha := h.accepted
    have hc := h.counted
    omega
  case h_2 =>
    rcases h with h | h | h | h
    all_goals
      have ha := h.accepted
      have hc := h.counted
      omega
  case h_3 hf =>
    have ha := h.accepted
    have hc := h.once
    refine ⟨by omega, by omega, fun hcl => ?_⟩
    rw [hf] at hcl
    exact absurd hcl nofun

/-- A registered endpoint that nobody is about to count has been counted. -/
theorem InOrder.counted_of_registered (h : a.InOrder) (hst : a.state = some .registered)
    (hz : a.tokens .counting = 0) : a.counted = 1 := by
  unfold InOrder at h
  split at h
  case h_1 => exact absurd (hst.symm.trans h.state) nofun
  case h_2 =>
    -- only an attempt that got through leaves its endpoint registered
    rcases h with h | h | h | h
    · exact absurd h.state (by simp [hst])
    · exact absurd h.state (by simp [hst])
    · have hc := h.counted
      omega
    · exact absurd h.state (by simp [hst])
  case h_3 =>
    have hc := h.registered hst
    omega

end Account

/-! ## The accounts of a machine -/

namespace Store

variable {s s' : Store} {e : EndpointId}

theorem Grows.bossTold (h : s.Grows s') (ht : s.BossTold e) : s'.BossTold e := by
  obtain ⟨r, hr, ht⟩ := ht
  obtain ⟨st, hr'⟩ := h.endpoint hr
  exact ⟨_, hr', h.told ht⟩

/-- Without a boss there is nobody to tell. -/
theorem bossTold_of_datagram (h : s.flavor? e = some .datagram) : s.BossTold e := by
  obtain ⟨r, hr, hfac⟩ := Option.bind_eq_some_iff.mp h
  obtain ⟨fac, hfac, hfl⟩ := Option.map_eq_some_iff.mp hfac
  refine ⟨r, hr, by rw [hfac]; rfl, fun st hst l hl => ?_⟩
  -- only the boss comes before the first worker, and there is none
  obtain rfl : st = .boss := Seat.rank_inj (Nat.lt_one_iff.mp hst)
  cases hb : fac.boss with
  | none => simp [loop?, hfac, Factory.loop?, hb] at hl
  | some b => simp [Factory.flavor, hb] at hfl

/-- Building a factory queues nothing. -/
theorem Sound.queued_build (hs : s.Sound) (b : Blueprint) (e : EndpointId) (σ : Stage) :
    (s.build b).queued e σ = s.queued e σ := by
  have hendpoints : (s.build b).endpoints = s.endpoints := rfl
  rw [queued, queued, waiting, waiting, hendpoints]
  cases hr : s.endpoints[e]? with
  | none => rfl
  | some r =>
    obtain ⟨fac, hfac⟩ := hs.factory hr
    have hlt : r.factory < s.factories.size := (Array.getElem?_eq_some_iff.mp hfac).1
    have hqueue (st : Seat) : (s.build b).queue ⟨r.factory, st⟩ = s.queue ⟨r.factory, st⟩ := by
      rw [queue, queue, loop?, loop?, Store.build, Array.getElem?_push_lt hlt,
        Array.getElem?_eq_getElem hlt]
    simp only [Endpoint.boss, Endpoint.home, hqueue]

end Store

namespace Machine

variable {m m' : Machine} {i : Incident} {is : List Incident} {e : EndpointId}

/-- How much of the endpoint is at each stage, over all threads and queues. -/
def tokens (m : Machine) (e : EndpointId) (σ : Stage) : Nat :=
  m.total (fun _ c => c.cargo.count (e, σ)) + m.store.queued e σ

/-- **The account of an endpoint.** -/
def account (m : Machine) (is : List Incident) (e : EndpointId) : Account where
  tokens := m.tokens e
  state := m.store.state? e
  flavor := m.store.flavor? e
  accepted := accepted is e
  counted := counted is e
  told := m.store.BossTold e

/-- **Whatever happens is booked** as one leg on the account of each endpoint. -/
theorem Advance.booked (hm : m.Reachable) (h : m.Advance i m') (is : List Incident)
    (e : EndpointId) : ∃ leg, (m.account is e).Booked leg (m'.account (is ++ [i]) e) := by
  obtain ⟨hs, hsound⟩ := hm.sound
  have hgrows := h.grows
  cases h with
  | @act t c c' g ns hc hmove =>
    obtain ⟨leg, p⟩ := Control.passes_of_act hs (hsound t c hc) hmove e
    refine ⟨leg, fun σ => ?_, p.state, p.guard, p.founds, ?_, ?_, hgrows.bossTold⟩
    · -- what the queues lose or gain, the hands of this thread gain or lose
      have htotal := total_act (fun _ c => c.cargo.count (e, σ)) hc g c'
      have hcarried := p.carried σ
      simp only [account, tokens, store_act]
      omega
    · simp only [account, accepted_append, accepted_singleton, Incident.notes, p.accepted]
    · simp only [account, counted_append, counted_singleton, Incident.notes, p.counted]
  | @answer t c r after hc hmove reply =>
    refine ⟨.idle, fun σ => ?_, ?_, trivial, ?_, ?_, ?_, hgrows.bossTold⟩
    · have htotal := total_answer (w := fun _ c => c.cargo.count (e, σ)) hc (fun _ _ _ => rfl)
        after reply
      rw [Control.cargo_of_ask reply hmove] at htotal
      simp only [account, tokens, store_answer]
      simp only [Leg.takes, Leg.puts, List.count_nil]
      omega
    · exact congrArg (·.state? e) (store_answer ..)
    · exact congrArg (·.flavor? e) (store_answer ..)
    · simp [account, Incident.notes, Leg.takes]
    · simp [account, Incident.notes, Leg.takes]
  | call home o =>
    refine ⟨.idle, fun σ => ?_, rfl, trivial, rfl, ?_, ?_, id⟩
    · simp [account, tokens, total_spawn, Leg.takes, Leg.puts]
    · simp [account, Incident.notes, Leg.takes]
    · simp [account, Incident.notes, Leg.takes]
  | build b =>
    refine ⟨.idle, fun σ => ?_, rfl, trivial, ?_, ?_, ?_, hgrows.bossTold⟩
    · simp [account, tokens, Machine.build, hs.queued_build, Leg.takes, Leg.puts]
      exact total_build _ m b
    · exact hs.flavor?_eq hgrows (fun _ => rfl) e
    · simp [account, Incident.notes, Leg.takes]
    · simp [account, Incident.notes, Leg.takes]

/-- **Along every history, every account is in order.** -/
theorem Run.inOrder (r : Run is m) (e : EndpointId) : (m.account is e).InOrder := by
  refine r.induction (motive := fun is m => (m.account is e).InOrder) ?empty ?advance
  case empty =>
    have hflavor : (Machine.empty.account [] e).flavor = none := by
      simp [account, Machine.empty, Store.empty, Store.flavor?]
    rw [Account.InOrder, hflavor]
    refine ⟨?_, fun σ => ?_, rfl, rfl⟩
    · simp [account, Machine.empty, Store.empty, Store.state?]
    · simp [account, tokens, Machine.empty, Store.empty, Store.queued, Store.waiting]
      exact total_empty _
  case advance =>
    intro is m i m' r ih a
    obtain ⟨leg, b⟩ := a.booked r.reachable is e
    exact ih.booked b Store.bossTold_of_datagram

end Machine

end EndpointControl
