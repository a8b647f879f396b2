import EndpointControl.Proofs.Lineage

/-!
# What handles share

The handles that lead to one provider are a family: all come from one of them by copying
alone. A provider cannot tell through which handle it was asked, so what it has counted is
what was done through any of the family (`Handles.Counts`), and a handle that came of
attaching a version begins a family whose provider has counted nothing.

Whether a wake-up is pending on a multiplexer can be told from the record, too: it was woken,
and no wait on it has ended since (`WokenSince`). This is so because each multiplexer has a
flag of its own with its provider (`Handles.Supply`). A wake-up raises it, whether it was up
or not, the end of a wait lowers it, and what is done elsewhere does not reach it
(`Handles.Does.pending`).

`Handles.kinship` puts this together for any sequence of uses, made with any handles to any
number of providers.
-/

namespace EndpointControl

namespace HandleEntry

/-- The handle through which something was to be opened, whether it was or not. -/
def asked? : HandleEntry → Option Nat
  | ⟨.openThrough k, .opened _⟩ | ⟨.openThrough k, .failed _⟩ => some k
  | _ => none

/-- The multiplexer that was opened. -/
def opened? : HandleEntry → Option Nat
  | ⟨.openThrough _, .opened m⟩ => some m
  | _ => none

/-- The multiplexer that was woken. -/
def woken? : HandleEntry → Option Nat
  | ⟨.wake m, .done⟩ => some m
  | _ => none

/-- **What the entry makes of the flags** of the multiplexers. -/
def flags : HandleEntry → List Bool → List Bool
  | ⟨.openThrough _, .opened _⟩, fl => fl ++ [false]
  | ⟨.wake m, .done⟩, fl => fl.set m true
  | ⟨.wait m _, .events _⟩, fl => fl.set m false
  | _, fl => fl

end HandleEntry

/-- **The multiplexer has been woken since a wait on it last ended.** -/
def WokenSince (es : List HandleEntry) (m : Nat) : Prop :=
  ∃ earlier later, es = earlier ++ ⟨.wake m, .done⟩ :: later
    ∧ ∀ limited n, ⟨.wait m limited, .events n⟩ ∉ later

section Record

variable {es : List HandleEntry} {e : HandleEntry} {m : Nat}

theorem not_wokenSince_nil : ¬ WokenSince [] m := by
  rintro ⟨earlier, later, h, -⟩
  simp at h

/-- The last entry tells that the multiplexer was woken, or it was woken before that and the
last entry does not tell that a wait on it has ended. -/
theorem wokenSince_concat : WokenSince (es ++ [e]) m ↔ e = ⟨.wake m, .done⟩
    ∨ WokenSince es m ∧ ∀ limited n, e ≠ ⟨.wait m limited, .events n⟩ := by
  constructor
  · rintro ⟨earlier, later, h, hlater⟩
    rcases List.eq_nil_or_concat later with rfl | ⟨later, e', rfl⟩
    · exact .inl (List.singleton_inj.mp (List.append_inj' h rfl).2)
    · rw [List.concat_eq_append] at h hlater
      rw [← List.cons_append, ← List.append_assoc] at h
      obtain ⟨rfl, he⟩ := List.append_inj' h rfl
      obtain rfl := List.singleton_inj.mp he
      simp only [List.mem_append, List.mem_singleton, not_or] at hlater
      exact .inr ⟨⟨earlier, later, rfl, fun l n => (hlater l n).1⟩,
        fun l n he => (hlater l n).2 he.symm⟩
  · rintro (rfl | ⟨⟨earlier, later, rfl, hlater⟩, he⟩)
    · exact ⟨es, [], rfl, fun _ _ => List.not_mem_nil⟩
    · refine ⟨earlier, later ++ [e], by simp, fun l n hmem => ?_⟩
      rcases List.mem_append.mp hmem with hmem | hmem
      · exact hlater l n hmem
      · exact he l n (List.mem_singleton.mp hmem).symm

theorem getElem?_set_eq_some_true {fl : List Bool} {v : Bool} {m' : Nat} :
    (fl.set m' v)[m]? = some true
      ↔ (m' = m ∧ v = true ∧ m < fl.length) ∨ m' ≠ m ∧ fl[m]? = some true := by
  rw [List.getElem?_set]
  by_cases hm : m' = m
  · subst hm
    by_cases hlt : m' < fl.length <;> simp [hlt]
  · simp [hm]

/-- A flag is up if it has just been raised, or was up and has not just been lowered. -/
theorem getElem?_flags {fl : List Bool} : (e.flags fl)[m]? = some true
    ↔ (e = ⟨.wake m, .done⟩ ∧ m < fl.length)
      ∨ fl[m]? = some true ∧ ∀ limited n, e ≠ ⟨.wait m limited, .events n⟩ := by
  unfold HandleEntry.flags
  split
  · rw [List.getElem?_append]
    split
    · simp
    · rename_i hm
      simp [List.getElem?_eq_none (Nat.le_of_not_lt hm), List.getElem?_singleton]
  · rename_i m'
    rw [getElem?_set_eq_some_true]
    by_cases hm : m' = m
    · subst hm
      by_cases hlt : m' < fl.length <;> simp [hlt]
    · simp [hm]
  · rename_i m' l n
    rw [getElem?_set_eq_some_true]
    by_cases hm : m' = m <;> simp [hm]
  · rename_i hopen hwake hwait
    have hw : e ≠ ⟨.wake m, .done⟩ := hwake m
    have hl : ∀ limited n, e ≠ ⟨.wait m limited, .events n⟩ := hwait m
    simp only [hw, hl, false_and, false_or, ne_eq, not_false_iff, implies_true, and_true]

end Record

namespace Handles

/-- What a provider has counted; one that there is not has counted nothing. -/
def tally (h : Handles) (count : CountingProvider → Nat) (g : Nat) : Nat :=
  (h.providers[g]?.map count).getD 0

variable {h h' : Handles} {u : HandleUse} {e : HandleEntry} {es : List HandleEntry}
  {fs : List (Identity × Bool)} {bs : List Birth} {a g k m n : Nat} {p q : CountingProvider}
  {f : CountingProvider → CountingProvider}

theorem getElem?_providers_modify (hg : h.providers[g]? = some p) (k : Nat) :
    (h.modify g f).providers[k]? = if g = k then some (f p) else h.providers[k]? := by
  rw [modify, Array.getElem?_modify]
  split
  · rename_i hk
    rw [← hk, hg, Option.map_some]
  · rfl

theorem flag_modify (hg : h.providers[g]? = some p) (x : Nat × Nat) :
    (h.modify g f).flag x = if g = x.1 then (f p).isPending x.2 else h.flag x := by
  rw [flag, getElem?_providers_modify hg]
  split <;> rfl

theorem tally_modify (hg : h.providers[g]? = some p) (count : CountingProvider → Nat) (k : Nat) :
    (h.modify g f).tally count k = if g = k then count (f p) else h.tally count k := by
  rw [tally, getElem?_providers_modify hg]
  split <;> rfl

theorem flag_eq (hg : h.providers[g]? = some p) (n : Nat) : h.flag (g, n) = p.isPending n := by
  rw [flag, hg]
  rfl

theorem tally_eq (hg : h.providers[g]? = some p) (count : CountingProvider → Nat) :
    h.tally count g = count p := by
  rw [tally, hg]
  rfl

/-! ## Flags of multiplexers -/

/-- **Each multiplexer has a flag of its own** with the provider that opened it. -/
structure Supply (es : List HandleEntry) (h : Handles) : Prop where
  /-- The provider knows it. -/
  known : ∀ {m g n : Nat}, h.muxes[m]? = some (g, n) →
    ∃ p, h.providers[g]? = some p ∧ n < p.pending.size
  /-- No two of them are one. -/
  apart : ∀ {m m' : Nat} {x : Nat × Nat}, h.muxes[m]? = some x → h.muxes[m']? = some x → m = m'
  /-- They have been numbered as they were opened. -/
  numbered : es.filterMap HandleEntry.opened? = List.range h.muxes.size
  /-- They belong to the provider of the handle through which they were opened. -/
  opener : ∀ {k m : Nat}, ⟨.openThrough k, .opened m⟩ ∈ es →
    ∃ g n, h.handles[k]? = some g ∧ h.muxes[m]? = some (g, n)
  /-- Whatever was asked to open or woken is still there. -/
  asked : ∀ {e : HandleEntry} {k : Nat}, e ∈ es → e.asked? = some k →
    ∃ g, h.handles[k]? = some g
  woken : ∀ {e : HandleEntry} {m : Nat}, e ∈ es → e.woken? = some m → ∃ x, h.muxes[m]? = some x

theorem supply_founded (fs : List (Identity × Bool)) : Supply [] (founded fs) where
  known := by simp [founded]
  apart := by simp [founded]
  numbered := rfl
  opener := by simp
  asked := by simp
  woken := by simp

/-- A multiplexer was there before, or has just been opened. -/
theorem Does.mux_cases (d : h.Does e h') {x : Nat × Nat} (hx : h'.muxes[m]? = some x) :
    h.muxes[m]? = some x ∨ m = h.muxes.size
      ∧ ∃ p, h.providers[x.1]? = some p ∧ h'.providers[x.1]? = some p.openNext.1
        ∧ p.failing = false ∧ x.2 = p.pending.size := by
  cases d with
  | @opened k g p hk hp =>
    have hg := (provider?_eq_some_iff.mp hk).2
    rw [Array.getElem?_push] at hx
    split at hx
    · rename_i hm
      obtain rfl := Option.some.inj hx
      refine .inr ⟨hm, p, hg, ?_, hp, rfl⟩
      show (h.modify g fun _ => p.openNext.1).providers[g]? = _
      rw [getElem?_providers_modify hg, if_pos rfl]
    · exact .inl hx
  | copied | attached | failed | woken | waited | held | missed => exact .inl hx

theorem Does.numbered (d : h.Does e h') :
    List.range h.muxes.size ++ e.opened?.toList = List.range h'.muxes.size := by
  cases d with
  | opened hk hp => simp [HandleEntry.opened?, List.range_succ]
  | @missed u hu => cases u <;> simp [HandleEntry.opened?]
  | copied | attached | failed | woken | waited | held => simp [HandleEntry.opened?]

theorem Does.exists_opener (d : h.Does ⟨.openThrough k, .opened m⟩ h') :
    ∃ g n, h'.handles[k]? = some g ∧ h'.muxes[m]? = some (g, n) := by
  cases d with
  | opened hk hp => exact ⟨_, _, (provider?_eq_some_iff.mp hk).1, Array.getElem?_push_size⟩

theorem Does.exists_provider (d : h.Does e h') (hk : e.asked? = some k) :
    ∃ g p, h.provider? k = some (g, p) := by
  cases d with
  | opened hk' hp | failed hk' hp =>
    obtain rfl := Option.some.inj hk
    exact ⟨_, _, hk'⟩
  | @missed u hu => cases u <;> cases hk
  | copied | attached | woken | waited | held => cases hk

theorem Does.exists_mux (d : h.Does e h') (hm : e.woken? = some m) : ∃ x, h.muxes[m]? = some x := by
  cases d with
  | woken hm' =>
    obtain rfl := Option.some.inj hm
    exact ⟨_, hm'⟩
  | @missed u hu => cases u <;> cases hm
  | copied | attached | opened | failed | waited | held => cases hm

/-- **Each multiplexer has a flag of its own after one more use.** -/
theorem Supply.does (S : Supply es h) (d : h.Does e h') : Supply (es ++ [e]) h' where
  known := fun {m g n} hm => by
    rcases d.mux_cases hm with hm | ⟨-, p, -, hp', hfail, rfl⟩
    · obtain ⟨p, hp, hn⟩ := S.known hm
      obtain ⟨p', hp', -, -, hsize⟩ := d.keeps.provider hp
      exact ⟨p', hp', Nat.lt_of_lt_of_le hn hsize⟩
    · exact ⟨_, hp', by simp [CountingProvider.openNext, hfail]⟩
  apart := fun {m m' x} hm hm' => by
    -- the provider has never had a flag with the number of the one that it adds
    have hnew {k : Nat} {p : CountingProvider} (hk : h.muxes[k]? = some x)
        (hp : h.providers[x.1]? = some p) : x.2 ≠ p.pending.size := by
      obtain ⟨q, hq, hn⟩ := S.known hk
      obtain rfl := Option.some.inj (hp.symm.trans hq)
      exact Nat.ne_of_lt hn
    rcases d.mux_cases hm with hm | ⟨rfl, p, hp, -, -, heq⟩
    · rcases d.mux_cases hm' with hm' | ⟨rfl, p, hp, -, -, heq⟩
      · exact S.apart hm hm'
      · exact absurd heq (hnew hm hp)
    · rcases d.mux_cases hm' with hm' | ⟨rfl, -⟩
      · exact absurd heq (hnew hm' hp)
      · rfl
  numbered := by
    rw [List.filterMap_append, S.numbered, ← d.numbered]
    cases h : e.opened? <;> simp [h]
  opener := fun {k m} hmem => by
    rcases List.mem_append.mp hmem with hmem | hmem
    · obtain ⟨g, n, hk, hm⟩ := S.opener hmem
      exact ⟨g, n, d.keeps.handle hk, d.keeps.mux hm⟩
    · obtain rfl := List.mem_singleton.mp hmem
      exact d.exists_opener
  asked := fun {e' k} hmem hk => by
    rcases List.mem_append.mp hmem with hmem | hmem
    · obtain ⟨g, hg⟩ := S.asked hmem hk
      exact ⟨g, d.keeps.handle hg⟩
    · obtain rfl := List.mem_singleton.mp hmem
      obtain ⟨g, p, hg⟩ := d.exists_provider hk
      exact ⟨g, d.keeps.handle (provider?_eq_some_iff.mp hg).1⟩
  woken := fun {e' m} hmem hm => by
    rcases List.mem_append.mp hmem with hmem | hmem
    · obtain ⟨x, hx⟩ := S.woken hmem hm
      exact ⟨x, d.keeps.mux hx⟩
    · obtain rfl := List.mem_singleton.mp hmem
      obtain ⟨x, hx⟩ := d.exists_mux hm
      exact ⟨x, d.keeps.mux hx⟩

/-- A change to one flag of a provider changes the flag of one multiplexer. -/
theorem Supply.pending_modify (S : Supply es h) (hm : h.muxes[m]? = some (g, n)) {v : Bool}
    (hf : ∀ p, n < p.pending.size → ∀ k, (f p).isPending k = if n = k then v else p.isPending k) :
    (h.modify g f).pending = h.pending.set m v := by
  obtain ⟨p, hp, hn⟩ := S.known hm
  refine List.ext_getElem? fun k => ?_
  rw [getElem?_pending, muxes_modify, List.getElem?_set]
  by_cases hk : m = k
  · subst hk
    have hlt : m < h.pending.length := by
      simpa [pending] using (Array.getElem?_eq_some_iff.mp hm).1
    rw [if_pos rfl, if_pos hlt, hm, Option.map_some, flag_modify hp, if_pos rfl, hf p hn,
      if_pos rfl]
  · rw [if_neg hk, getElem?_pending]
    refine Option.map_congr fun x hx => ?_
    rw [flag_modify hp]
    split
    · rename_i hg
      have hne : n ≠ x.2 := fun hnx => hk (S.apart hm (hx.trans (congrArg some (by rw [hg, hnx]))))
      rw [hf p hn, if_neg hne, ← flag_eq hp, hg]
    · rfl

theorem flag_openNext (hg : h.providers[g]? = some p) :
    (h.modify g fun _ => p.openNext.1).flag = h.flag := by
  funext x
  rw [flag_modify hg]
  split
  · rename_i hx
    rw [CountingProvider.isPending_openNext, ← flag_eq hg, hx]
  · rfl

/-- **A use does to the flags what its entry tells.** -/
theorem Does.pending (d : h.Does e h') (S : Supply es h) : h'.pending = e.flags h.pending := by
  cases d with
  | copied hk => rfl
  | attached v hk =>
    refine List.map_congr_left fun x hx => ?_
    obtain ⟨m, hm⟩ := List.mem_iff_getElem?.mp hx
    obtain ⟨p, hp, -⟩ := S.known ((Array.getElem?_toList ..).symm.trans hm)
    show ((h.providers.push _)[x.1]?.map _).getD _ = _
    rw [getElem?_push_of_some hp, hp]
  | @opened k g p hk hp =>
    have hg := (provider?_eq_some_iff.mp hk).2
    have hnew : p.isPending p.pending.size = false := by simp [CountingProvider.isPending]
    show (h.muxes.push (g, p.pending.size)).toList.map (h.modify g fun _ => p.openNext.1).flag
      = h.muxes.toList.map h.flag ++ [false]
    rw [flag_openNext hg, Array.toList_push, List.map_append, List.map_singleton, flag_eq hg,
      hnew]
  | @failed k g p hk hp =>
    show h.muxes.toList.map (h.modify g fun _ => p.openNext.1).flag = h.muxes.toList.map h.flag
    rw [flag_openNext (provider?_eq_some_iff.mp hk).2]
  | @woken m g n hm =>
    refine S.pending_modify hm fun p hn k => ?_
    rw [CountingProvider.isPending_wake]
    by_cases hk : n = k
    · subst hk
      simp [hn]
    · simp [hk]
  | @waited m g n limited hm hl =>
    exact S.pending_modify hm fun p _ k => p.isPending_wait n k
  | held hm => rfl
  | @missed u hu => cases u <;> rfl

/-- **A wake-up is pending exactly where the record tells so.** -/
theorem Supply.pending_iff_does (S : Supply es h)
    (hp : ∀ m, h.pending[m]? = some true ↔ WokenSince es m) (d : h.Does e h') (m : Nat) :
    h'.pending[m]? = some true ↔ WokenSince (es ++ [e]) m := by
  rw [d.pending S, getElem?_flags, wokenSince_concat, hp]
  refine or_congr_left ⟨And.left, ?_⟩
  rintro rfl
  obtain ⟨x, hx⟩ := d.exists_mux rfl
  exact ⟨rfl, by simpa [pending] using (Array.getElem?_eq_some_iff.mp hx).1⟩

/-! ## What providers count -/

/-- The provider that was asked to open. -/
def asking (h : Handles) (e : HandleEntry) : Option Nat := e.asked?.bind (h.handles[·]?)

/-- The provider one of whose multiplexers was woken. -/
def waking (h : Handles) (e : HandleEntry) : Option Nat :=
  e.woken?.bind fun m => h.muxes[m]?.map Prod.fst

variable {count : CountingProvider → Nat}

/-- A provider that has counted nothing adds nothing. -/
theorem tally_push (hq : count q = 0) (hs : Array Nat) (k : Nat) :
    ({ h with providers := h.providers.push q, handles := hs } : Handles).tally count k
      = h.tally count k := by
  rw [tally, tally, Array.getElem?_push]
  split
  · rename_i hk
    rw [hk, Array.getElem?_eq_none (Nat.le_refl _), Option.map_some, Option.getD_some, hq]
    rfl
  · rfl

theorem tally_modify_of_eq (hf : ∀ p, count (f p) = count p) (k : Nat) :
    (h.modify g f).tally count k = h.tally count k := by
  rw [tally, modify, Array.getElem?_modify]
  split
  · rw [Option.map_map]
    exact congrArg (Option.getD · 0) (Option.map_congr fun p _ => hf p)
  · rfl

theorem tally_modify_of_succ (hg : h.providers[g]? = some p) (hf : count (f p) = count p + 1)
    (k : Nat) :
    (h.modify g f).tally count k = h.tally count k + if some g = some k then 1 else 0 := by
  rw [tally_modify hg]
  by_cases hk : g = k
  · subst hk
    rw [if_pos rfl, if_pos rfl, hf, tally_eq hg]
  · rw [if_neg hk, if_neg (by simpa using hk), Nat.add_zero]

/-- **A provider counts each attempt to open** through a handle that leads to it. -/
theorem Does.opens (d : h.Does e h') (k : Nat) : h'.tally CountingProvider.opens k
    = h.tally CountingProvider.opens k + if h'.asking e = some k then 1 else 0 := by
  cases d with
  | @opened k' g p hk hp | @failed k' g p hk hp =>
    obtain ⟨hk, hg⟩ := provider?_eq_some_iff.mp hk
    show (h.modify g fun _ => p.openNext.1).tally _ k = _ + if h.handles[k']? = some k then 1 else 0
    rw [hk]
    exact tally_modify_of_succ hg p.opens_openNext k
  | copied hk | held hm => rfl
  | attached v hk => exact tally_push rfl _ k
  | @woken m g n hm => exact tally_modify_of_eq (f := (·.wake n)) (fun _ => rfl) k
  | @waited m g n limited hm hl => exact tally_modify_of_eq (f := (·.wait n)) (fun _ => rfl) k
  | @missed u hu => cases u <;> rfl

/-- **A provider counts each wake-up** of a multiplexer that it opened. -/
theorem Does.wakes (d : h.Does e h') (S : Supply es h) (k : Nat) :
    h'.tally CountingProvider.wakes k
      = h.tally CountingProvider.wakes k + if h'.waking e = some k then 1 else 0 := by
  cases d with
  | @woken m g n hm =>
    obtain ⟨p, hp, -⟩ := S.known hm
    show (h.modify g (·.wake n)).tally _ k
      = _ + if h.muxes[m]?.map Prod.fst = some k then 1 else 0
    rw [hm]
    exact tally_modify_of_succ hp (p.wakes_wake n) k
  | opened hk hp | failed hk hp =>
    have hg := (provider?_eq_some_iff.mp hk).2
    show (h.modify _ _).tally _ k = _
    rw [tally_modify hg]
    split
    · rename_i hk
      rw [← hk, tally_eq hg, CountingProvider.wakes_openNext]
      rfl
    · rfl
  | copied hk | held hm => rfl
  | attached v hk => exact tally_push rfl _ k
  | @waited m g n limited hm hl => exact tally_modify_of_eq (f := (·.wait n)) (fun _ => rfl) k
  | @missed u hu => cases u <;> rfl

/-- **What providers have counted is in the record.** -/
structure Counts (es : List HandleEntry) (h : Handles) : Prop where
  opens : ∀ g, h.tally CountingProvider.opens g = es.countP fun e => h.asking e = some g
  wakes : ∀ g, h.tally CountingProvider.wakes g = es.countP fun e => h.waking e = some g

theorem counts_founded (fs : List (Identity × Bool)) : Counts [] (founded fs) := by
  have hnone (count : CountingProvider → Nat) (hcount : ∀ i f, count (.fresh i f) = 0) (g : Nat) :
      (founded fs).tally count g = 0 := by
    simp only [tally, founded, List.getElem?_toArray, List.getElem?_map, Option.map_map]
    cases fs[g]? with
    | none => rfl
    | some f => exact hcount f.1 f.2
  exact ⟨hnone _ fun _ _ => rfl, hnone _ fun _ _ => rfl⟩

/-- Whatever was asked to open leads where it has led, -/
theorem Keeps.asking_eq (K : h.Keeps h') (S : Supply es h) (he : e ∈ es) :
    h'.asking e = h.asking e := by
  refine Option.bind_congr fun k hask => ?_
  obtain ⟨g, hg⟩ := S.asked he hask
  rw [hg, K.handle hg]

/-- and whatever was woken belongs where it has belonged. -/
theorem Keeps.waking_eq (K : h.Keeps h') (S : Supply es h) (he : e ∈ es) :
    h'.waking e = h.waking e := by
  refine Option.bind_congr fun m hwake => ?_
  obtain ⟨x, hx⟩ := S.woken he hwake
  rw [hx, K.mux hx]

/-- What was counted before is counted as before, and what is new is added. -/
theorem countP_concat {place place' : HandleEntry → Option Nat}
    (hold : ∀ e ∈ es, place' e = place e) (g : Nat) :
    (es ++ [e]).countP (fun e => place' e = some g)
      = es.countP (fun e => place e = some g) + if place' e = some g then 1 else 0 := by
  have hsame : es.countP (fun e => place' e = some g) = es.countP fun e => place e = some g :=
    List.countP_congr fun e he => by rw [hold e he]
  rw [List.countP_append, hsame, List.countP_singleton]
  simp

theorem Counts.does (C : Counts es h) (S : Supply es h) (d : h.Does e h') :
    Counts (es ++ [e]) h' where
  opens := fun g => by
    rw [countP_concat (fun _ he => d.keeps.asking_eq S he), d.opens, C.opens]
  wakes := fun g => by
    rw [countP_concat (fun _ he => d.keeps.waking_eq S he), d.wakes S, C.wakes]

/-! ## After any uses -/

/-- **What the record tells of handles, providers and multiplexers.** -/
structure Told (fs : List (Identity × Bool)) (es : List HandleEntry) (h : Handles) : Prop where
  lineage : Lineage (births fs es) h
  supply : Supply es h
  counts : Counts es h
  pending : ∀ m, h.pending[m]? = some true ↔ WokenSince es m

theorem told_founded (fs : List (Identity × Bool)) : Told fs [] (founded fs) where
  lineage := lineage_founded fs
  supply := supply_founded fs
  counts := counts_founded fs
  pending := fun m => iff_of_false (by simp [pending, founded]) not_wokenSince_nil

/-- **One more use is told by one more entry.** -/
theorem Told.does (T : Told fs es h) (d : h.Does e h') : Told fs (es ++ [e]) h' where
  lineage := births_concat ▸ T.lineage.begets d.keeps d.begets
  supply := T.supply.does d
  counts := T.counts.does T.supply d
  pending := T.supply.pending_iff_does T.pending d

/-- **All uses are told by the record.** -/
theorem told (fs : List (Identity × Bool)) (us : List HandleUse) :
    Told fs ((founded fs).record us) ((founded fs).afterAll us) :=
  afterAll_induction (motive := Told fs) (told_founded fs) (fun T d => T.does d) us

theorem Told.use (T : Told fs es h) (u : HandleUse) :
    Told fs (es ++ [⟨u, (h.use u).2⟩]) (h.use u).1 := T.does (h.does_use u)

theorem length_pending (h : Handles) : h.pending.length = h.muxes.size := by simp [pending]

theorem Told.pending_use (T : Told fs es h) (u : HandleUse) :
    (h.use u).1.pending = HandleEntry.flags ⟨u, (h.use u).2⟩ h.pending :=
  (h.does_use u).pending T.supply

theorem use_eq_noSuch_iff : h.use u = (h, .noSuch) ↔ ¬ h.Has u := by
  constructor
  · intro hu
    have d := h.does_use u
    rw [hu] at d
    cases d with
    | missed hu => exact hu
  · intro hu
    cases u with
    | copy k | attach k v | openThrough k =>
      have hk : h.provider? k = none := by simpa [Has] using hu
      simp [Handles.use, hk]
    | wake m | wait m l =>
      have hm : h.muxes[m]? = none := by simpa [Has] using hu
      simp [Handles.use, hm]

/-- A wake-up is delivered where there is a multiplexer. -/
theorem use_wake (hm : m < h.muxes.size) : (h.use (.wake m)).2 = .done := by
  simp [Handles.use, hm]

/-- **A wait ends without events** if it is limited or something is pending. -/
theorem use_wait_of_ends {limited : Bool} (hm : m < h.muxes.size)
    (hl : limited = true ∨ h.pending[m]? = some true) :
    (h.use (.wait m limited)).2 = .events 0 := by
  have d := h.does_use (.wait m limited)
  generalize h.use (.wait m limited) = x at d
  obtain ⟨h', r⟩ := x
  cases d with
  | waited => rfl
  | held hf => simp [hf] at hl
  | missed hu => exact absurd hm hu

/-- A wait without a limit goes on where nothing is pending. -/
theorem use_wait_of_holds (hm : h.pending[m]? = some false) :
    h.use (.wait m false) = (h, .wouldBlock) := by
  have hlt : m < h.muxes.size := by
    rw [← length_pending]
    exact (List.getElem?_eq_some_iff.mp hm).1
  rw [getElem?_pending, Array.getElem?_eq_getElem hlt, Option.map_some, Option.some.injEq] at hm
  simp only [Handles.use, Array.getElem?_eq_getElem hlt, Bool.false_or]
  exact if_neg (Bool.eq_false_iff.mp hm)

theorem Told.pending_wake (T : Told fs es h) (hm : m < h.muxes.size) :
    (h.use (.wake m)).1.pending = h.pending.set m true := by
  rw [T.pending_use, use_wake hm]
  rfl

/-- **Many wake-ups count as one.** -/
theorem Told.pending_wakes (T : Told fs es h) (hm : m < h.muxes.size) (n : Nat) :
    (h.afterAll (List.replicate (n + 1) (.wake m))).pending = h.pending.set m true := by
  induction n generalizing es h with
  | zero => exact T.pending_wake hm
  | succ n ih =>
    have hm' : m < (h.use (.wake m)).1.muxes.size := by
      rw [← length_pending, T.pending_wake hm, List.length_set, length_pending]
      exact hm
    rw [List.replicate_succ, afterAll_cons, ih (T.use _) hm', T.pending_wake hm, List.set_set]

/-- **Every handle has its provider shown.** -/
theorem Lineage.getElem?_views (L : Lineage bs h) (a : Nat) :
    h.views[a]? = (h.provider? a).map Prod.snd := by
  have hsome : h.views.map some = h.handles.toList.map (h.providers[·]?) := by
    rw [views, List.map_filterMap_some_eq_filter_map_isSome, List.filter_eq_self]
    intro o ho
    obtain ⟨g, hg, rfl⟩ := List.mem_map.mp ho
    obtain ⟨k, hk⟩ := List.mem_iff_getElem?.mp hg
    simpa using L.within ((Array.getElem?_toList ..).symm.trans hk)
  have ha : h.views[a]?.map some = h.handles[a]?.map (h.providers[·]?) := by
    rw [← List.getElem?_map, hsome, List.getElem?_map, Array.getElem?_toList]
  rw [provider?]
  cases hk : h.handles[a]? with
  | none => simpa [hk] using ha
  | some g =>
    rw [hk, Option.map_some, Option.map_eq_some_iff] at ha
    obtain ⟨p, hp, hg⟩ := ha
    rw [hp, Option.bind_some, ← hg]
    rfl

/-- Something was to be opened through a handle of the family. -/
def AsksThrough (bs : List Birth) (a : Nat) (e : HandleEntry) : Prop :=
  ∃ k, e.asked? = some k ∧ Kin bs k a

/-- A multiplexer was woken that was opened through a handle of the family. -/
def WakesThrough (bs : List Birth) (es : List HandleEntry) (a : Nat) (e : HandleEntry) : Prop :=
  ∃ m k, e.woken? = some m ∧ ⟨.openThrough k, .opened m⟩ ∈ es ∧ Kin bs k a

open Classical in
/-- **How often something was to be opened** through handles of the family. -/
noncomputable def attemptsThrough (bs : List Birth) (es : List HandleEntry) (a : Nat) : Nat :=
  es.countP fun e => AsksThrough bs a e

open Classical in
/-- **How often multiplexers were woken** that were opened through handles of the family. -/
noncomputable def wakesThrough (bs : List Birth) (es : List HandleEntry) (a : Nat) : Nat :=
  es.countP fun e => WakesThrough bs es a e

/-- Handles that lead to the provider are of the family of any other one that does. -/
theorem Told.kin_iff (T : Told fs es h) (ha : h.handles[a]? = some g)
    (hk : h.handles[k]? = some n) : n = g ↔ Kin (births fs es) k a := by
  have hlt {k g : Nat} (hk : h.handles[k]? = some g) : k < (births fs es).length :=
    T.lineage.size ▸ (Array.getElem?_eq_some_iff.mp hk).1
  rw [← T.lineage.handle_eq_iff (hlt hk) (hlt ha), ha, hk, Option.some.injEq]

/-- A provider was asked through the handles that lead to it. -/
theorem Told.asking_iff (T : Told fs es h) (ha : h.handles[a]? = some g) (he : e ∈ es) :
    h.asking e = some g ↔ AsksThrough (births fs es) a e := by
  rw [asking, Option.bind_eq_some_iff]
  refine exists_congr fun k => and_congr_right fun hask => ?_
  obtain ⟨g', hk⟩ := T.supply.asked he hask
  rw [← T.kin_iff ha hk, hk, Option.some.injEq]

/-- **Every multiplexer was opened through some handle.** -/
theorem Supply.exists_opener (S : Supply es h) (hm : m < h.muxes.size) :
    ∃ k, ⟨.openThrough k, .opened m⟩ ∈ es := by
  rw [← List.mem_range, ← S.numbered, List.mem_filterMap] at hm
  obtain ⟨e, he, hopened⟩ := hm
  unfold HandleEntry.opened? at hopened
  split at hopened
  · obtain rfl := Option.some.inj hopened
    exact ⟨_, he⟩
  · cases hopened

/-- The multiplexers of a provider were opened through the handles that lead to it. -/
theorem Told.waking_iff (T : Told fs es h) (ha : h.handles[a]? = some g) :
    h.waking e = some g ↔ WakesThrough (births fs es) es a e := by
  rw [waking, Option.bind_eq_some_iff]
  refine exists_congr fun m => ?_
  constructor
  · rintro ⟨hwoken, hg⟩
    obtain ⟨⟨g', n⟩, hm, rfl⟩ := Option.map_eq_some_iff.mp hg
    obtain ⟨k, hopen⟩ := T.supply.exists_opener (Array.getElem?_eq_some_iff.mp hm).1
    obtain ⟨g', n', hk, hm'⟩ := T.supply.opener hopen
    refine ⟨k, hwoken, hopen, (T.kin_iff ha hk).mp ?_⟩
    cases hm'.symm.trans hm
    rfl
  · rintro ⟨k, hwoken, hopen, hkin⟩
    obtain ⟨g', n, hk, hm⟩ := T.supply.opener hopen
    refine ⟨hwoken, ?_⟩
    rw [hm, Option.map_some, (T.kin_iff ha hk).mpr hkin]

/-- **The attempts that a provider has counted** are those through any handle of the family. -/
theorem Told.opens_eq (T : Told fs es h) (ha : h.provider? a = some (g, p)) :
    p.opens = attemptsThrough (births fs es) es a := by
  obtain ⟨ha, hg⟩ := provider?_eq_some_iff.mp ha
  rw [← tally_eq hg CountingProvider.opens, T.counts.opens, attemptsThrough]
  exact List.countP_congr fun e he => by simp [T.asking_iff ha he]

/-- **The wake-ups that a provider has counted** are those of multiplexers that were opened
through any handle of the family. -/
theorem Told.wakes_eq (T : Told fs es h) (ha : h.provider? a = some (g, p)) :
    p.wakes = wakesThrough (births fs es) es a := by
  obtain ⟨ha, hg⟩ := provider?_eq_some_iff.mp ha
  rw [← tally_eq hg CountingProvider.wakes, T.counts.wakes, wakesThrough]
  exact List.countP_congr fun e _ => by simp [T.waking_iff ha]

/-- **No provider has counted more than there have been uses.** -/
theorem Told.counts_le (T : Told fs es h) (ha : h.provider? a = some (g, p)) :
    p.opens ≤ es.length ∧ p.wakes ≤ es.length := by
  rw [T.opens_eq ha, T.wakes_eq ha]
  exact ⟨List.countP_le_length, List.countP_le_length⟩

/-- **What handles share, what their providers count, and what is pending**, with the record of
all that was done. -/
structure Kinship (fs : List (Identity × Bool)) (es : List HandleEntry) (h : Handles) : Prop where
  /-- There is a handle for each birth, and it leads to a provider, -/
  handle : ∀ a, (h.provider? a).isSome ↔ a < (births fs es).length
  /-- which is what is shown of it. -/
  views : ∀ a, h.views[a]? = (h.provider? a).map Prod.snd
  /-- Two handles lead to one provider exactly if both come from one by copying alone. -/
  shared : ∀ {a b}, a < (births fs es).length → b < (births fs es).length →
    (h.Shared a b ↔ Kin (births fs es) a b)
  /-- The handles of the beginning lead to providers as they were given, -/
  first : ∀ {a i f}, (births fs es)[a]? = some (.first i f) →
    ∃ g p, h.provider? a = some (g, p) ∧ p.identity = i ∧ p.failing = f
  /-- and one to which a version was attached leads to another provider that differs from the
  first one in its version alone. -/
  attached : ∀ {a b v}, (births fs es)[b]? = some (.attached a v) →
    ∃ g p g' p', h.provider? a = some (g, p) ∧ h.provider? b = some (g', p') ∧ g ≠ g'
      ∧ p'.identity = { p.identity with version := some v } ∧ p'.failing = p.failing
  /-- That one is shared with no handle and has counted nothing when it comes about. -/
  fresh : ∀ {a g p} v, h.provider? a = some (g, p) → ∃ g' p',
    (h.use (.attach a v)).1.provider? h.handles.size = some (g', p')
      ∧ p'.opens = 0 ∧ p'.wakes = 0 ∧ p'.identity.name = p.identity.name
      ∧ p'.identity.version = some v ∧ p'.failing = p.failing
      ∧ ∀ b, b < h.handles.size → ¬ (h.use (.attach a v)).1.Shared b h.handles.size
  /-- A provider has counted the attempts through all handles of the family, also failed ones, -/
  opens : ∀ {a g p}, h.provider? a = some (g, p) → p.opens = attemptsThrough (births fs es) es a
  /-- and the wake-ups of all multiplexers opened through them. -/
  wakes : ∀ {a g p}, h.provider? a = some (g, p) → p.wakes = wakesThrough (births fs es) es a
  /-- Words that are counted up in place of the counters show the same numbers, as long as there
  have been fewer than 2^64 uses. -/
  words : es.length < UInt64.size → ∀ {a g p}, h.provider? a = some (g, p) →
    (UInt64.ofNat p.opens).toNat = p.opens ∧ (UInt64.ofNat p.wakes).toNat = p.wakes
  /-- An attempt fails exactly if the provider is to fail, -/
  opening : ∀ {a g p}, h.provider? a = some (g, p) → (h.use (.openThrough a)).2
    = if p.failing then .failed p.failureText else .opened h.muxes.size
  /-- and multiplexers are numbered as they are opened. -/
  numbered : es.filterMap HandleEntry.opened? = List.range h.muxes.size
  /-- Only what there is not is answered by saying so, and this changes nothing. -/
  missing : ∀ u, h.use u = (h, .noSuch) ↔ ¬ h.Has u
  /-- A wake-up is pending exactly if there was one since a wait last ended. -/
  pending : ∀ m, h.pending[m]? = some true ↔ WokenSince es m
  /-- Each multiplexer has a flag, -/
  flagged : h.pending.length = h.muxes.size
  /-- which a wake-up raises, -/
  woken : ∀ {m}, m < h.muxes.size →
    (h.use (.wake m)).2 = .done ∧ (h.use (.wake m)).1.pending = h.pending.set m true
  /-- and many wake-ups as well as one. -/
  once : ∀ {m} n, m < h.muxes.size → (h.afterAll (List.replicate (n + 1) (.wake m))).pending
    = (h.use (.wake m)).1.pending
  /-- A wait ends without events if it is limited or a wake-up is pending, and lowers the flag; -/
  ended : ∀ {m limited}, m < h.muxes.size → (limited = true ∨ h.pending[m]? = some true) →
    (h.use (.wait m limited)).2 = .events 0
      ∧ (h.use (.wait m limited)).1.pending = h.pending.set m false
  /-- otherwise it does not end. -/
  held : ∀ {m}, h.pending[m]? = some false → h.use (.wait m false) = (h, .wouldBlock)
  /-- Whatever is no wake-up of a multiplexer and no wait on it leaves its flag alone. -/
  apart : ∀ {m u}, m < h.muxes.size → u ≠ .wake m → (∀ limited, u ≠ .wait m limited) →
    (h.use u).1.pending[m]? = h.pending[m]?

/-- An entry about something else leaves the flag alone. -/
theorem getElem?_flags_of_ne {r : HandleResult} {fl : List Bool} (hm : m < fl.length)
    (hw : u ≠ .wake m) (hl : ∀ limited, u ≠ .wait m limited) :
    (HandleEntry.flags ⟨u, r⟩ fl)[m]? = fl[m]? := by
  unfold HandleEntry.flags
  split
  · exact List.getElem?_append_left hm
  · rename_i m' heq
    obtain ⟨rfl, -⟩ := HandleEntry.mk.inj heq
    exact List.getElem?_set_ne fun h => hw (congrArg HandleUse.wake h)
  · rename_i m' l _ heq
    obtain ⟨rfl, -⟩ := HandleEntry.mk.inj heq
    exact List.getElem?_set_ne fun h => hl l (by rw [h])
  · rfl

/-- **A version makes a new provider** that nobody shares. -/
theorem Told.attach (T : Told fs es h) (v : String) (ha : h.provider? a = some (g, p)) :
    (h.use (.attach a v)).1.provider? h.handles.size = some (h.providers.size, p.withVersion v)
      ∧ ∀ b, b < h.handles.size → ¬ (h.use (.attach a v)).1.Shared b h.handles.size := by
  have hnew : (h.use (.attach a v)).1.provider? h.handles.size
      = some (h.providers.size, p.withVersion v) := by
    simp only [Handles.use, ha]
    exact provider?_eq_some_iff.mpr ⟨Array.getElem?_push_size, Array.getElem?_push_size⟩
  refine ⟨hnew, fun b hb hshared => ?_⟩
  obtain ⟨g', q, hgq⟩ := T.lineage.exists_provider hb
  obtain ⟨g'', q', hq, hq'⟩ := hshared
  obtain ⟨q'', hq'', -⟩ := (h.does_use (.attach a v)).keeps.provider? hgq
  cases hnew.symm.trans hq'
  cases hq''.symm.trans hq
  exact Nat.lt_irrefl _ (T.lineage.within (provider?_eq_some_iff.mp hgq).1)

/-- **Handles share what their family tells, and flags what the record tells**, after any uses
of handles to any number of new providers. -/
theorem kinship (fs : List (Identity × Bool)) (us : List HandleUse) :
    Kinship fs ((founded fs).record us) ((founded fs).afterAll us) := by
  have T := told fs us
  exact
  { handle := T.lineage.isSome_provider?_iff
    views := T.lineage.getElem?_views
    shared := T.lineage.shared_iff
    first := T.lineage.first
    attached := T.lineage.attached
    fresh := fun v ha =>
      ⟨_, _, (T.attach v ha).1, rfl, rfl, rfl, rfl, rfl, (T.attach v ha).2⟩
    opens := T.opens_eq
    wakes := T.wakes_eq
    words := fun hlength {a g p} ha =>
      ⟨UInt64.toNat_ofNat_of_lt' (Nat.lt_of_le_of_lt (T.counts_le ha).1 hlength),
        UInt64.toNat_ofNat_of_lt' (Nat.lt_of_le_of_lt (T.counts_le ha).2 hlength)⟩
    opening := fun {a g p} ha => by
      cases hp : p.failing <;> simp [Handles.use, ha, CountingProvider.openNext, hp]
    numbered := T.supply.numbered
    missing := fun u => use_eq_noSuch_iff
    pending := T.pending
    flagged := length_pending _
    woken := fun hm => ⟨use_wake hm, T.pending_wake hm⟩
    once := fun n hm => (T.pending_wakes hm n).trans (T.pending_wake hm).symm
    ended := fun {m limited} hm hl => by
      have hr := use_wait_of_ends hm hl
      refine ⟨hr, ?_⟩
      rw [T.pending_use, hr]
      rfl
    held := use_wait_of_holds
    apart := fun {m u} hm hw hl => by
      rw [T.pending_use]
      exact getElem?_flags_of_ne (by rwa [length_pending]) hw hl }

/-- A handle is copied, a version is attached to the copy, and both are used. -/
example : ((founded [(⟨"a", none⟩, false)]).afterAll [.copy 0, .attach 1 "2", .openThrough 1,
    .openThrough 2, .wake 0, .wake 0]).views.map (fun p => (p.opens, p.wakes))
      = [(1, 2), (1, 2), (1, 0)] := by decide

end Handles

end EndpointControl
