import EndpointControl.Proofs.Starting

/-!
# Everybody uses the one multiplexer

Who submits a job to a loop, tells it to end or runs it holds a multiplexer in its
hands: what it has read from the slot, or been given by whoever started the loop.
A slot that is full stays as it is, so this is what the slot holds
(`Frame.Aware`, `Machine.Traffic.aware`), and whatever is asked for the loop is
asked with this one multiplexer (`Machine.Traffic.slot_of_names`). As no loop is
taken twice, no two threads run one loop (`Machine.Traffic.serving`).
-/

namespace EndpointControl

/-- **What a procedure knows of its loop**: that it has been started, or which
multiplexer it has. -/
def Frame.Aware (s : Store) : Frame → Prop
  | .start l p =>
    match p with
    | .execute m => s.slot? l = some m
    | .announce => s.Started l
    | .leave r => r = .ok () → s.Started l
    | _ => True
  | .submit l _ p =>
    match p with
    | .readShutDown | .takeSlot | .readSlot => s.Started l
    | .serialize mo | .takeQueue mo | .append mo => ∃ m, mo = some m ∧ s.slot? l = some m
    | .wake m => s.slot? l = some m
    | _ => True
  | .signal l (.wake m) => s.slot? l = some m
  | .serve l m _ => s.slot? l = some m
  | _ => True

/-- **What the procedures of a thread know of their loops.** -/
def Control.Aware (s : Store) : Control → Prop
  | .running stack => ∀ fr ∈ stack, fr.Aware s
  | .finished _ => True

@[simp] theorem Control.aware_nil (s : Store) : (Control.running []).Aware s := nofun

@[simp] theorem Control.aware_cons {s : Store} {fr : Frame} {below : List Frame} :
    (Control.running (fr :: below)).Aware s ↔ fr.Aware s ∧ (Control.running below).Aware s :=
  List.forall_mem_cons

/-- **A store, and the store later**: loops stay started and slots stay full. -/
structure Store.Settles (s s' : Store) : Prop where
  started : ∀ l, s.Started l → s'.Started l
  slot : ∀ l m, s.slot? l = some m → s'.slot? l = some m

section Procedures

variable {s s' : Store} {t : ThreadId} {l : LoopId} {fr caller : Frame} {below : List Frame}
  {g : Store → Store} {c c' : Control} {ns : List Note}

theorem Frame.Aware.mono (h : fr.Aware s) (hs : s.Settles s') : fr.Aware s' := by
  cases fr with
  | start l p =>
    cases p
    case execute m => exact hs.slot l m h
    case announce => exact hs.started l h
    case leave r => exact fun hr => hs.started l (h hr)
    all_goals trivial
  | submit l j p =>
    cases p
    case readShutDown | takeSlot | readSlot => exact hs.started l h
    case serialize | takeQueue | append => exact h.imp fun m hm => ⟨hm.1, hs.slot l m hm.2⟩
    case wake m => exact hs.slot l m h
    all_goals trivial
  | signal l p =>
    cases p
    case wake m => exact hs.slot l m h
    all_goals trivial
  | serve l m p => exact hs.slot l m h
  | _ => trivial

theorem Control.Aware.mono (h : c.Aware s) (hs : s.Settles s') : c.Aware s' := by
  cases c with
  | running stack => exact fun fr hfr => (h fr hfr).mono hs
  | finished o => trivial

/-- **A caller that goes on** knows what it did, and if it has had its loop started,
that it has been. -/
theorem Frame.Awaits.aware_resume (h : caller.Awaits fr) (ha : caller.Aware s)
    {r : Except Failure Unit}
    (hr : ∀ l p, fr = .start l p → r = .ok () → s.Started l) : (caller.resume r).Aware s := by
  unfold Awaits at h
  split at h
  case h_1 =>
    cases h
    cases r with
    | ok => exact hr _ _ rfl rfl
    | error e => trivial
  case h_11 => exact h.elim
  all_goals cases r <;> trivial

theorem Frame.Stacked.aware_back (h : fr.Stacked below) (hb : (Control.running below).Aware s)
    {r : Except Failure Unit} (hr : ∀ l p, fr = .start l p → r = .ok () → s.Started l) :
    (Control.back below r).Aware s := by
  cases below with
  | nil => trivial
  | cons caller rest =>
    rw [Control.aware_cons] at hb
    exact Control.aware_cons.mpr ⟨h.1.aware_resume hb.1 hr, hb.2⟩

/-- A procedure that is just beginning knows nothing of its loop. -/
theorem Frame.aware_of_isNew (h : fr.isNew = true) : fr.Aware s := by
  cases fr with
  | start l p => cases p <;> trivial
  | submit l j p => cases p <;> trivial
  | signal l p => cases p <;> trivial
  | serve => exact absurd h nofun
  | _ => trivial

theorem StartPoint.aware {lp : Loop} {p : StartPoint} (found : s.loop? l = some lp)
    (h : p.move s t below l lp = .act g c ns) (hst : (Frame.start l p).Stacked below)
    (ha : (Frame.start l p).Aware s) (hb : (Control.running below).Aware (g s)) :
    c.Aware (g s) := by
  cases p <;> simp [StartPoint.move] at h
  case readShutDown =>
    obtain ⟨rfl, rfl, -⟩ := h
    split
    · exact hst.aware_back hb fun _ _ _ h => by cases h
    · exact Control.aware_cons.mpr ⟨trivial, hb⟩
  case readStarted =>
    obtain ⟨rfl, rfl, -⟩ := h
    split
    · rename_i hup
      refine hst.aware_back hb fun l' p' heq _ => ?_
      obtain ⟨rfl, -⟩ := Frame.start.inj heq
      exact ⟨lp, found, hup⟩
    · exact Control.aware_cons.mpr ⟨trivial, hb⟩
  case takeSlot =>
    obtain ⟨-, rfl, rfl, -⟩ := h
    exact Control.aware_cons.mpr ⟨trivial, hb⟩
  case rereadShutDown =>
    obtain ⟨rfl, rfl, -⟩ := h
    refine Control.aware_cons.mpr ⟨?_, hb⟩
    split
    · rintro ⟨⟩
    · trivial
  case rereadStarted =>
    obtain ⟨rfl, rfl, -⟩ := h
    refine Control.aware_cons.mpr ⟨?_, hb⟩
    split
    · exact fun _ => ⟨lp, found, ‹_›⟩
    · trivial
  case inspectSlot =>
    obtain ⟨rfl, rfl, -⟩ := h
    refine Control.aware_cons.mpr ⟨?_, hb⟩
    split
    · exact (Store.slot?_eq found).trans ‹_›
    · trivial
  case fillSlot m =>
    obtain ⟨rfl, rfl, -⟩ := h
    exact Control.aware_cons.mpr
      ⟨Store.slot?_eq (Store.loop?_modifyLoop_self found fun l => { l with slot := some m }), hb⟩
  case mark =>
    obtain ⟨rfl, rfl, -⟩ := h
    exact Control.aware_cons.mpr ⟨⟨_, Store.loop?_modifyLoop_self found _, rfl⟩, hb⟩
  case announce =>
    obtain ⟨rfl, rfl, -⟩ := h
    exact Control.aware_cons.mpr ⟨fun _ => ha, hb⟩
  case leave r =>
    obtain ⟨rfl, rfl, -⟩ := h
    refine hst.aware_back hb fun l' p' heq hr => ?_
    obtain ⟨rfl, -⟩ := Frame.start.inj heq
    exact ha hr

theorem SubmitPoint.aware {lp : Loop} {j : Job} {p : SubmitPoint} (found : s.loop? l = some lp)
    (h : p.move s t below l lp j = .act g c ns) (hst : (Frame.submit l j p).Stacked below)
    (ha : (Frame.submit l j p).Aware (g s)) (hb : (Control.running below).Aware (g s))
    (hslot : s.Started l → (s.slot? l).isSome) : c.Aware (g s) := by
  have hback (r : Except Failure Unit) : (Control.back below r).Aware (g s) :=
    hst.aware_back hb fun _ _ => nofun
  cases p <;> simp [SubmitPoint.move] at h
  case start | refuse =>
    obtain ⟨rfl, rfl, -⟩ := h
    exact Control.aware_cons.mpr ⟨trivial, Control.aware_cons.mpr ⟨trivial, hb⟩⟩
  case readShutDown =>
    obtain ⟨rfl, rfl, -⟩ := h
    refine Control.aware_cons.mpr ⟨?_, hb⟩
    split
    · trivial
    · exact ha
  case takeSlot =>
    obtain ⟨-, rfl, rfl, -⟩ := h
    exact Control.aware_cons.mpr ⟨ha, hb⟩
  case readSlot =>
    -- a loop that has been started has its multiplexer
    obtain ⟨rfl, rfl, -⟩ := h
    obtain ⟨m, hm⟩ := Option.isSome_iff_exists.mp (hslot ha)
    exact Control.aware_cons.mpr ⟨⟨m, (Store.slot?_eq found).symm.trans hm, hm⟩, hb⟩
  case serialize mo =>
    split at h <;> simp at h
    · obtain ⟨-, rfl, rfl, -⟩ := h
      exact Control.aware_cons.mpr ⟨ha, hb⟩
    · obtain ⟨rfl, rfl, -⟩ := h
      exact Control.aware_cons.mpr ⟨ha, hb⟩
  case takeQueue mo =>
    obtain ⟨-, rfl, rfl, -⟩ := h
    exact Control.aware_cons.mpr ⟨ha, hb⟩
  case append mo =>
    obtain ⟨rfl, rfl, -⟩ := h
    obtain ⟨m, rfl, hm⟩ := ha
    exact Control.aware_cons.mpr ⟨hm, hb⟩
  case leave => split at h <;> simp at h <;> obtain ⟨rfl, rfl, -⟩ := h <;> exact hback _
  case refused e =>
    obtain ⟨rfl, rfl, -⟩ := h
    exact hback _
  case wakeFailed cause =>
    obtain ⟨rfl, rfl, -⟩ := h
    exact Control.aware_cons.mpr ⟨trivial, hb⟩

theorem SignalPoint.aware {lp : Loop} {p : SignalPoint} (found : s.loop? l = some lp)
    (h : p.move s t below l lp = .act g c ns) (hst : (Frame.signal l p).Stacked below)
    (hb : (Control.running below).Aware (g s)) : c.Aware (g s) := by
  have hback (r : Except Failure Unit) : (Control.back below r).Aware (g s) :=
    hst.aware_back hb fun _ _ => nofun
  cases p <;> simp [SignalPoint.move] at h
  case raise =>
    obtain ⟨rfl, rfl, -⟩ := h
    split
    · exact hback _
    · exact Control.aware_cons.mpr ⟨trivial, hb⟩
  case takeSlot =>
    obtain ⟨-, rfl, rfl, -⟩ := h
    exact Control.aware_cons.mpr ⟨trivial, hb⟩
  case readSlot =>
    obtain ⟨rfl, rfl, -⟩ := h
    refine Control.aware_cons.mpr ⟨?_, hb⟩
    split
    · exact (Store.slot?_eq found).trans ‹_›
    · trivial
  case announce =>
    obtain ⟨rfl, rfl, -⟩ := h
    exact hback _
  all_goals
    obtain ⟨rfl, rfl, -⟩ := h
    exact Control.aware_cons.mpr ⟨trivial, hb⟩

/-- **What procedures know of their loops after a step.** -/
theorem Control.aware_of_act (hst : c.Stacked) (ha : c.Aware s) (hs : s.Settles (g s))
    (hslot : ∀ l, s.Started l → (s.slot? l).isSome) (h : c.move s t = .act g c' ns) :
    c'.Aware (g s) := by
  obtain ⟨fr, below, rfl, hm⟩ := moves_of_act h
  have hgoes := goes_of_running h
  obtain ⟨hfr, hb⟩ := Control.aware_cons.mp (ha.mono hs)
  -- apart from those about a loop, no procedure knows anything that another could forget
  have hrest (hstart : ∀ l p, fr ≠ .start l p)
      (hsame : ∀ fr', fr.SameCall fr' → fr'.Aware (g s)) : c'.Aware (g s) := by
    cases hgoes with
    | within hs => exact aware_cons.mpr ⟨hsame _ hs, hb⟩
    | calls hs hnew =>
      exact aware_cons.mpr ⟨Frame.aware_of_isNew hnew, aware_cons.mpr ⟨hsame _ hs, hb⟩⟩
    | returns => exact Frame.Stacked.aware_back hst hb fun l p heq => absurd heq (hstart l p)
    | ends => trivial
  cases hm with
  | start found hp => exact StartPoint.aware found hp hst (aware_cons.mp ha).1 hb
  | submit found hp => exact SubmitPoint.aware found hp hst hfr hb (hslot _)
  | signal found hp => exact SignalPoint.aware found hp hst hb
  | serve => exact hrest nofun fun fr' h => by cases h; exact hfr
  | _ => exact hrest nofun fun fr' h => by cases h; trivial

/-- Nobody forgets by asking. -/
theorem Control.aware_of_ask {q : Request} {after : q.Reply → Control} (reply : q.Reply)
    (ha : c.Aware s) (h : c.move s t = .ask q after) : (after reply).Aware s := by
  obtain ⟨fr, below, rfl, hask⟩ := asks h
  obtain ⟨hfr, hb⟩ := aware_cons.mp ha
  cases hask with
  | openNew =>
    cases reply with
    | ok m => exact aware_cons.mpr ⟨trivial, hb⟩
    | error cause => exact aware_cons.mpr ⟨nofun, hb⟩
  | execute =>
    refine aware_cons.mpr ⟨?_, hb⟩
    cases reply
    · exact nofun
    · trivial
  | wakeSubmit | wakeSignal => cases reply <;> exact aware_cons.mpr ⟨trivial, hb⟩
  | wait => exact aware_cons.mpr ⟨hfr, hb⟩
  | _ => exact aware_cons.mpr ⟨trivial, hb⟩

/-- **The multiplexers of a loop that are named in a request.** -/
def Request.names (l : LoopId) : Request → List Multiplexer
  | .execute _ l' m | .wake l' m | .wait l' m => if l' = l then [m] else []
  | _ => []

/-- **Who asks for a loop names the multiplexer in its slot.** -/
theorem Control.slot_of_ask {q : Request} {after : q.Reply → Control} (ha : c.Aware s)
    (h : c.move s t = .ask q after) {m : Multiplexer} (hm : m ∈ q.names l) :
    s.slot? l = some m := by
  obtain ⟨fr, below, rfl, hask⟩ := asks h
  obtain ⟨hfr, -⟩ := aware_cons.mp ha
  cases hask with
  | @execute id | @wakeSubmit id | @wakeSignal id | @wait id =>
    simp only [Request.names] at hm
    split at hm
    · rename_i hid
      subst hid
      obtain rfl := List.mem_singleton.mp hm
      exact hfr
    · exact absurd hm List.not_mem_nil
  | _ => exact absurd hm List.not_mem_nil

/-- **Nobody begins to run a loop** by a step of their own. -/
theorem Control.serving?_of_act (hc : c.Stacked) (h : c.move s t = .act g c' ns)
    (hserving : (c'.serving? l).isSome) : (c.serving? l).isSome := by
  obtain ⟨fr, below, rfl, hgoes⟩ := goes_of_act h
  by_cases hfr : ∃ m p, fr = .serve l m p
  · obtain ⟨m, p, rfl⟩ := hfr
    rw [serving?_serve, Option.isSome_some]
  · rwa [← hgoes.serving? hc fun m p heq => hfr ⟨m, p, heq⟩]

theorem Control.serving?_of_answer {q : Request} {after : q.Reply → Control} (reply : q.Reply)
    (h : c.move s t = .ask q after) (hserving : ((after reply).serving? l).isSome) :
    (c.serving? l).isSome := by
  rcases (Control.serving?_of_ask reply h : _ = c.serving? l ∨ _) with
    heq | ⟨m, r, below, rfl, -⟩
  · rwa [← heq]
  · rw [serving?_serve, Option.isSome_some]

end Procedures

/-- The multiplexers of a loop that are named in an incident. -/
def Incident.names (l : LoopId) : Incident → List Multiplexer
  | .stepped _ (.answered q _) => q.names l
  | _ => []

namespace Machine

variable {m m' : Machine} {is : List Incident} {i : Incident} {l : LoopId} {t t' : ThreadId}
  {c c' : Control}

theorem Traffic.settles (h : Traffic is m) (a : m.Advance i m') : m.store.Settles m'.store :=
  ⟨fun _ => a.grows.started, fun _ _ => h.slot_kept a⟩

/-- **In all traffic everybody knows the multiplexer of their loop.** -/
theorem Traffic.aware (h : Traffic is m) : ∀ t c, m.control? t = some c → c.Aware m.store := by
  refine h.induction (motive := fun _ m => ∀ t c, m.control? t = some c → c.Aware m.store)
    (fun t c hc => by simp [control?, Machine.empty] at hc) (fun h ih a t d hd => ?advance)
    (fun home _ ih hnew t d hd => ?use)
  case advance =>
    have hs := h.settles a
    cases a.places hd with
    | kept hc => exact (ih t d hc).mono hs
    | acted hc hmove hm =>
      subst hm
      exact Control.aware_of_act (h.stacked t _ hc) (ih t _ hc) hs
        (fun l hl => (h.slot_of_started hl).1) hmove
    | answered reply hc hmove hafter =>
      exact hafter ▸ (Control.aware_of_ask reply (ih t _ hc) hmove).mono hs
    | @called _ o _ hd =>
      rw [hd]
      cases o <;> exact Control.aware_cons.mpr ⟨trivial, Control.aware_nil _⟩
    | @served t' c x l mux after _ hc hmove hd =>
      -- it runs on the multiplexer with which it was offered to the executor
      have hslot := Control.slot_of_ask (ih t' c hc) hmove (m := mux)
        (by rw [Request.names, if_pos rfl]; exact List.mem_singleton.mpr rfl)
      rw [hd]
      exact Control.aware_cons.mpr ⟨hs.slot _ _ hslot, Control.aware_nil _⟩
  case use =>
    rw [control?_spawn] at hd
    split at hd
    · obtain rfl := Option.some.inj hd
      exact Control.aware_cons.mpr ⟨Frame.aware_of_isNew hnew, Control.aware_nil _⟩
    · exact ih t d hd

/-- **Whatever is asked for a loop is asked with the multiplexer in its slot.** -/
theorem Traffic.slot_of_names (h : Traffic is m) : ∀ i ∈ is, ∀ mux ∈ i.names l,
    m.store.slot? l = some mux := by
  refine h.induction
    (motive := fun is m => ∀ i ∈ is, ∀ mux ∈ i.names l, m.store.slot? l = some mux) nofun
    (fun {is m i m'} h ih a i' hi' mux hmux => ?advance) (fun _ _ ih _ => ih)
  rcases List.mem_append.mp hi' with hi' | hi'
  · exact h.slot_kept a (ih i' hi' mux hmux)
  · obtain rfl := List.mem_singleton.mp hi'
    cases a with
    | answer hc hmove reply =>
      rw [store_answer]
      exact Control.slot_of_ask (h.aware _ _ hc) hmove hmux
    | _ => exact absurd hmux List.not_mem_nil

/-! ## One thread runs a loop -/

/-- **A thread that runs a loop did so before**, or an executor has just taken it. -/
theorem Advance.serving (a : m.Advance i m')
    (hst : ∀ t c, m.control? t = some c → c.Stacked) (hc : m'.control? t = some c')
    (hserving : (c'.serving? l).isSome) :
    (∃ c, m.control? t = some c ∧ (c.serving? l).isSome)
      ∨ t = m.threads.size ∧ i.taken l = 1 := by
  cases a.places hc with
  | kept hc => exact .inl ⟨_, hc, hserving⟩
  | acted hc hmove => exact .inl ⟨_, hc, Control.serving?_of_act (hst t _ hc) hmove hserving⟩
  | answered reply hc hmove hafter =>
    exact .inl ⟨_, hc, Control.serving?_of_answer reply hmove (hafter ▸ hserving)⟩
  | @called _ o ht hd =>
    rw [hd] at hserving
    cases o <;> exact absurd hserving nofun
  | @served _ _ _ l' _ _ ht _ _ hd hi =>
    rw [hd] at hserving
    by_cases hid : l' = l
    · exact .inr ⟨ht, by rw [hi, Incident.taken, if_pos hid]⟩
    · simp [Frame.serving?, hid] at hserving

/-- **Who runs a loop does so alone**, because an executor has taken it once. -/
theorem Traffic.serving (h : Traffic is m) : ∀ {t t' c c'}, m.control? t = some c →
    m.control? t' = some c' → (c.serving? l).isSome → (c'.serving? l).isSome →
    t = t' ∧ taken is l = 1 := by
  refine h.induction (motive := fun is m => ∀ {t t' c c'}, m.control? t = some c →
    m.control? t' = some c' → (c.serving? l).isSome → (c'.serving? l).isSome →
    t = t' ∧ taken is l = 1) (fun hc => by simp [control?, Machine.empty] at hc) ?advance ?use
  case advance =>
    intro is m i m' h ih a t t' c c' hc hc' hs hs'
    have hle : taken (is ++ [i]) l ≤ 1 := (h.advance a).taken_le l
    rw [taken_concat] at hle ⊢
    -- a thread that ran it before is the only one; a new one is taken only if there was none
    rcases a.serving h.stacked hc hs with ⟨c₀, hc₀, hs₀⟩ | ⟨rfl, htaken⟩ <;>
      rcases a.serving h.stacked hc' hs' with ⟨c₁, hc₁, hs₁⟩ | ⟨rfl, htaken'⟩
    · obtain ⟨rfl, hone⟩ := ih hc₀ hc₁ hs₀ hs₁
      exact ⟨rfl, by omega⟩
    · obtain ⟨-, hone⟩ := ih hc₀ hc₀ hs₀ hs₀
      omega
    · obtain ⟨-, hone⟩ := ih hc₁ hc₁ hs₁ hs₁
      omega
    · exact ⟨rfl, by omega⟩
  case use =>
    intro is m fr home h ih hnew t t' c c' hc hc' hs hs'
    have hold {t : ThreadId} {c : Control} (hc : (m.spawn home (.running [fr])).control? t = some c)
        (hs : (c.serving? l).isSome) : m.control? t = some c := by
      rw [control?_spawn] at hc
      split at hc
      · obtain rfl := Option.some.inj hc
        rw [Control.serving?_cons, Frame.serving?_of_not_root (Frame.isRoot_of_isNew hnew)] at hs
        cases hs
      · exact hc
    exact ih (hold hc hs) (hold hc' hs') hs hs'

end Machine

end EndpointControl
