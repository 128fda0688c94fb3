import Warren.Publisher.Pool.Tokens

namespace Pool

open Function Option
open Procs Bool

def CallPhase.owns (e : Nat) (p : CallPhase) : Bool := p.entry = some e

def DrainPhase.entry : DrainPhase → Option Nat
  | .closing e => some e
  | _ => none

def DrainPhase.owns (e : Nat) (p : DrainPhase) : Bool := p.entry = some e

namespace State

variable {size : Nat}

def live (s : State size) (e : Nat) : Bool := (s.entries e).any (fun entry => !entry.closed)

def owners (s : State size) (e : Nat) : Nat :=
  s.free.buf.count e + s.calls.countP (CallPhase.owns e) + s.drains.countP (DrainPhase.owns e)

structure Owned (s : State size) : Prop where
  entry_lt : ∀ {e entry}, s.entries e = some entry → e < s.nextEntry
  once : ∀ e, s.owners e = (s.live e).toNat

structure Checked (s : State size) : Prop where
  taken : ∀ {j e : Nat}, s.calls[j]? = some (.taken e true) → s.notified e = true
  holding : ∀ {j e : Nat} {pending}, s.calls[j]? = some (.holding e pending) → pending = false

variable {s s' t : State size}

theorem owned_init (size : Nat) : (init size).Owned where
  entry_lt := by
    intro e entry h
    contradiction
  once := fun _ => rfl

variable {e j : Nat} {entry : Entry} {p q : CallPhase}

theorem live_setEntry (hentry : s.entries e = some entry) (closeCh : Chan Unit 1) (e' : Nat)
    : (s.setEntry e { entry with closeCh }).live e' = s.live e' := by
  unfold live setEntry
  by_cases heq : e' = e
  . subst heq
    simp [hentry]
  . dsimp only
    rw [update_of_ne heq]

theorem live_closeEntry (s : State size) (e e' : Nat)
    : (s.closeEntry e).live e' = (s.live e' && e' ≠ e) := by
  unfold live closeEntry
  by_cases heq : e' = e
  . subst heq
    cases s.entries e' with
    | none => simp
    | some entry => simp
  . simp [heq]

theorem Owned.not_live_next (h : s.Owned) : s.live s.nextEntry = false := by
  unfold live
  cases hentry : s.entries s.nextEntry with
  | none => rfl
  | some entry => exact absurd (h.entry_lt hentry) (Nat.lt_irrefl _)

theorem live_opened (h : s.Owned) (j e : Nat)
    : ((s.opened j).live e).toNat = (s.live e).toNat + (decide (some s.nextEntry = some e)).toNat := by
  by_cases heq : e = s.nextEntry
  . subst heq
    rw [h.not_live_next]
    simp [live, opened, goto, setEntry]
  . have hlive : (s.opened j).live e = s.live e := by
      simp [live, opened, goto, setEntry, update_of_ne heq]
    rw [hlive]
    simp [Ne.symm heq]

theorem Owned.live_of_owners (h : s.Owned) (howners : 1 ≤ s.owners e) : s.live e = true := by
  rw [h.once e] at howners
  cases hlive : s.live e with
  | true => rfl
  | false => simp [hlive] at howners

theorem Owned.live_of_call (h : s.Owned) (hcall : s.calls[j]? = some p) (hp : p.entry = some e)
    : s.live e = true := by
  have hle := toNat_le_countP (CallPhase.owns e) hcall
  have howns : p.owns e = true := decide_eq_true hp
  rw [howns, toNat_true] at hle
  apply h.live_of_owners
  unfold owners
  omega

theorem Owned.goto (h : s.Owned) (hcall : s.calls[j]? = some p) (hcalls : t.calls = s.calls)
    (hdrains : t.drains = s.drains) (hlt : ∀ {e entry}, t.entries e = some entry → e < t.nextEntry)
    (hown : ∀ e, t.free.buf.count e + (q.owns e).toNat + (s.live e).toNat =
      s.free.buf.count e + (p.owns e).toNat + (t.live e).toNat) : (t.goto j q).Owned := by
  refine ⟨hlt, ?_⟩
  intro e
  have honce := h.once e
  have hset := countP_set (CallPhase.owns e) hcall q
  have hown := hown e
  unfold owners at honce ⊢
  show t.free.buf.count e + (t.calls.set j q).countP (CallPhase.owns e) +
    t.drains.countP (DrainPhase.owns e) = (t.live e).toNat
  rw [hcalls, hdrains]
  omega

theorem Owned.drainGoto (h : s.Owned) {p q : DrainPhase} (hdrain : s.drains[j]? = some p)
    (hcalls : t.calls = s.calls) (hdrains : t.drains = s.drains)
    (hlt : ∀ {e entry}, t.entries e = some entry → e < t.nextEntry)
    (hown : ∀ e, t.free.buf.count e + (q.owns e).toNat + (s.live e).toNat =
      s.free.buf.count e + (p.owns e).toNat + (t.live e).toNat) : (t.drainGoto j q).Owned := by
  refine ⟨hlt, ?_⟩
  intro e
  have honce := h.once e
  have hset := countP_set (DrainPhase.owns e) hdrain q
  have hown := hown e
  unfold owners at honce ⊢
  show t.free.buf.count e + t.calls.countP (CallPhase.owns e) +
    (t.drains.set j q).countP (DrainPhase.owns e) = (t.live e).toNat
  rw [hcalls, hdrains]
  omega

theorem entry_lt_setEntry (h : s.Owned) (hentry : s.entries e = some entry) (entry' : Entry)
    {e' : Nat} {entry₁ : Entry} (h₁ : (s.setEntry e entry').entries e' = some entry₁)
    : e' < s.nextEntry := by
  unfold setEntry at h₁
  dsimp only at h₁
  by_cases heq : e' = e
  . exact heq ▸ h.entry_lt hentry
  . rw [update_of_ne heq] at h₁
    exact h.entry_lt h₁

theorem entry_lt_closeEntry (h : s.Owned) {e' : Nat} (h₁ : (s.closeEntry e).entries e' = some entry)
    : e' < s.nextEntry := by
  unfold closeEntry at h₁
  dsimp only at h₁
  by_cases heq : e' = e
  . subst heq
    rw [update_self] at h₁
    have ⟨entry₀, h₀, _⟩ := map_eq_some_iff.mp h₁
    exact h.entry_lt h₀
  . rw [update_of_ne heq] at h₁
    exact h.entry_lt h₁

theorem toNat_live_closeEntry (hlive : s.live e = true) (e' : Nat)
    : (s.live e').toNat = (decide (some e = some e')).toNat + ((s.closeEntry e).live e').toNat := by
  rw [live_closeEntry]
  by_cases heq : e' = e
  . subst heq
    simp [hlive]
  . simp [heq, Ne.symm heq]

theorem count_of_recv {free : Chan Nat size} (h : s.free.recv = some (some e, free)) (e' : Nat)
    : s.free.buf.count e' = free.buf.count e' + (decide (some e = some e')).toNat := by
  have ⟨hbuf, _⟩ := Chan.recv_eq_some_some_iff.mp h
  rw [hbuf, List.count_cons]
  by_cases heq : e = e'
  all_goals simp [heq]

theorem count_of_trySend {free : Chan Nat size} (h : s.free.trySend e = some free) (e' : Nat)
    : free.buf.count e' = s.free.buf.count e' + (decide (some e = some e')).toNat := by
  have ⟨_, _, hbuf, _⟩ := Chan.trySend_eq_some_iff.mp h
  rw [hbuf, List.count_append]
  by_cases heq : e = e'
  all_goals simp [heq]

theorem owned_of_callMove (h : s.Owned) {a : CallAction} (hmove : s.CallMove j a s')
    : s'.Owned := by
  cases hmove with
  | take e free hcall hrecv =>
    refine h.goto hcall rfl rfl h.entry_lt (fun e' => ?_)
    have hcount := count_of_recv hrecv e'
    show free.buf.count e' + (decide (some e = some e')).toNat + (s.live e').toNat =
      s.free.buf.count e' + 0 + (s.live e').toNat
    omega
  | handBack e free hcall hsend =>
    refine h.goto hcall rfl rfl h.entry_lt (fun e' => ?_)
    have hcount := count_of_trySend hsend e'
    show free.buf.count e' + 0 + (s.live e').toNat =
      s.free.buf.count e' + (decide (some e = some e')).toNat + (s.live e').toNat
    omega
  | foundDead e pending entry closeCh hcall hentry | releaseDead e entry closeCh hcall hentry =>
    refine h.goto hcall rfl rfl (entry_lt_setEntry h hentry _) (fun e' => ?_)
    rw [live_setEntry hentry]
    rfl
  | opened hcall =>
    refine h.goto hcall rfl rfl ?_ (fun e' => ?_)
    . intro e entry hentry
      unfold setEntry at hentry
      dsimp only at hentry ⊢
      by_cases heq : e = s.nextEntry
      . omega
      . rw [update_of_ne heq] at hentry
        exact Nat.lt_succ_of_lt (h.entry_lt hentry)
    . have hlive := live_opened h j e'
      show s.free.buf.count e' + (decide (some s.nextEntry = some e')).toNat + (s.live e').toNat =
        s.free.buf.count e' + 0 + ((s.opened j).live e').toNat
      omega
  | token v tokens hcall | cancel hcall | foundLive e pending hcall | openFn hcall | openErr hcall
  | openPanic hcall | giveBack r tokens hcall | release e pending hcall | releaseLive e hcall
  | noRoom e hcall | returnToken tokens hcall =>
    exact h.goto hcall rfl rfl h.entry_lt (fun _ => rfl)
  | _ e hcall =>
    refine h.goto hcall rfl rfl (entry_lt_closeEntry h) (fun e' => ?_)
    have hlive := toNat_live_closeEntry (h.live_of_call hcall rfl) e'
    show s.free.buf.count e' + 0 + (s.live e').toNat =
      s.free.buf.count e' + (decide (some e = some e')).toNat + ((s.closeEntry e).live e').toNat
    omega

theorem Owned.live_of_drain (h : s.Owned) (hdrain : s.drains[j]? = some (.closing e))
    : s.live e = true := by
  have hle := toNat_le_countP (DrainPhase.owns e) hdrain
  have howns : DrainPhase.owns e (.closing e) = true := decide_eq_true rfl
  rw [howns, toNat_true] at hle
  apply h.live_of_owners
  unfold owners
  omega

theorem owned_step (h : s.Owned) {a : Action} (hstep : s.step a = some s') : s'.Owned := by
  cases step_move hstep with
  | call j a _ hmove => exact owned_of_callMove h hmove
  | drainTake j e free hdrain hrecv =>
    refine h.drainGoto hdrain rfl rfl h.entry_lt (fun e' => ?_)
    have hcount := count_of_recv hrecv e'
    show free.buf.count e' + (decide (some e = some e')).toNat + (s.live e').toNat =
      s.free.buf.count e' + 0 + (s.live e').toNat
    omega
  | drained j hdrain => exact h.drainGoto hdrain rfl rfl h.entry_lt (fun _ => rfl)
  | drainClose j e hdrain =>
    refine h.drainGoto hdrain rfl rfl (entry_lt_closeEntry h) (fun e' => ?_)
    have hlive := toNat_live_closeEntry (h.live_of_drain hdrain) e'
    show s.free.buf.count e' + 0 + (s.live e').toNat =
      s.free.buf.count e' + (decide (some e = some e')).toNat + ((s.closeEntry e).live e').toNat
    omega
  | notifyClose e entry closeCh hentry | closeNotify e entry closeCh hentry =>
    refine ⟨entry_lt_setEntry h hentry _, fun e' => ?_⟩
    rw [live_setEntry hentry]
    exact h.once e'
  | _ =>
    refine ⟨h.entry_lt, fun e => ?_⟩
    unfold owners
    rw [countP_concat]
    exact h.once e

theorem checked_init (size : Nat) : (init size).Checked where
  taken := by
    intro j e h
    contradiction
  holding := by
    intro j e pending h
    contradiction

theorem notified_setEntry_of_ne {e' : Nat} (hne : e' ≠ e) (entry : Entry)
    : (s.setEntry e entry).notified e' = s.notified e' := by
  unfold notified setEntry
  dsimp only
  rw [update_of_ne hne]

theorem notified_closeEntry (s : State size) (e e' : Nat)
    : (s.closeEntry e).notified e' = s.notified e' := by
  unfold notified closeEntry
  dsimp only
  by_cases heq : e' = e
  . subst heq
    rw [update_self]
    cases s.entries e' with
    | none => rfl
    | some entry => rfl
  . rw [update_of_ne heq]

theorem Owned.call_eq (h : s.Owned) {i : Nat} (hi : s.calls[i]? = some p)
    (hj : s.calls[j]? = some q) (hp : p.entry = some e) (hq : q.entry = some e) : i = j := by
  have honce := h.once e
  have hle : (s.live e).toNat ≤ 1 := toNat_le _
  unfold owners at honce
  exact eq_of_countP_le_one (f := CallPhase.owns e) hi hj (decide_eq_true hp)
    (decide_eq_true hq) (by omega)

theorem Checked.goto (h : s.Checked) (hcalls : t.calls = s.calls)
    (hnotified : ∀ {i e}, i ≠ j → s.calls[i]? = some (.taken e true) → s.notified e = true →
      t.notified e = true) (htaken : ∀ {e}, q = .taken e true → t.notified e = true)
    (hholding : ∀ {e pending}, q = .holding e pending → pending = false)
    : (t.goto j q).Checked := by
  have hcalls' : (t.goto j q).calls = s.calls.set j q := by
    unfold State.goto
    rw [hcalls]
  refine ⟨?_, ?_⟩
  . intro i e hi
    rw [hcalls'] at hi
    cases getElem?_set_eq_some hi with
    | inl hself => exact htaken hself.2.symm
    | inr hother => exact hnotified hother.1 hother.2 (h.taken hother.2)
  . intro i e pending hi
    rw [hcalls'] at hi
    cases getElem?_set_eq_some hi with
    | inl hself => exact hholding hself.2.symm
    | inr hother => exact h.holding hother.2

theorem Checked.goto_of_same (h : s.Checked) (hcalls : t.calls = s.calls)
    (hentries : t.entries = s.entries) (htaken : ∀ {e}, q ≠ .taken e true)
    (hholding : ∀ {e pending}, q ≠ .holding e pending) : (t.goto j q).Checked := by
  refine h.goto hcalls ?_ (fun hq => absurd hq htaken) (fun hq => absurd hq hholding)
  intro i e _ _ hnotified
  unfold notified
  rwa [hentries]

theorem Checked.receive (howned : s.Owned) (h : s.Checked) (hcall : s.calls[j]? = some p)
    (hp : p.entry = some e) (entry : Entry) (htaken : ∀ {e}, q ≠ .taken e true)
    (hholding : ∀ {e pending}, q ≠ .holding e pending)
    : ((s.setEntry e entry).goto j q).Checked := by
  refine h.goto rfl ?_ (fun hq => absurd hq htaken) (fun hq => absurd hq hholding)
  intro i e' hne hi hnotified
  have hne' : e' ≠ e := by
    intro heq
    exact hne (howned.call_eq hi hcall rfl (heq ▸ hp))
  rwa [notified_setEntry_of_ne hne']

theorem recvClose_of_notified (h : s.notified e = true) : s.recvClose e ≠ none := by
  grind [notified, recvClose]

theorem checked_of_callMove (howned : s.Owned) (h : s.Checked) {a : CallAction}
    (hmove : s.CallMove j a s') : s'.Checked := by
  cases hmove with
  | take e free hcall =>
    refine h.goto rfl (fun _ _ hn => hn) ?_ (fun hq => by contradiction)
    intro e' hq
    have ⟨he, hn⟩ := CallPhase.taken.inj hq
    rw [← he]
    exact hn
  | foundDead e pending entry closeCh hcall | releaseDead e entry closeCh hcall =>
    exact h.receive howned hcall rfl _ (fun hq => by contradiction) (fun hq => by contradiction)
  | foundLive e pending hcall hlive =>
    refine h.goto rfl (fun _ _ hn => hn) (fun hq => by contradiction) ?_
    intro e' pending' hq
    have ⟨_, hpending⟩ := CallPhase.holding.inj hq
    rw [← hpending]
    cases pending with
    | false => rfl
    | true => exact absurd hlive (recvClose_of_notified (h.taken hcall))
  | opened hcall =>
    refine h.goto rfl ?_ (fun hq => by contradiction) ?_
    . intro i e _ hi hnotified
      have hne : e ≠ s.nextEntry := by
        intro heq
        have hlive := howned.live_of_call hi rfl
        rw [heq, howned.not_live_next] at hlive
        contradiction
      exact (notified_setEntry_of_ne hne _).trans hnotified
    . intro e pending hq
      exact (CallPhase.holding.inj hq).2.symm
  | discard e hcall | close e hcall =>
    refine h.goto rfl ?_ (fun hq => by contradiction) (fun hq => by contradiction)
    intro i e' _ _ hn
    rwa [notified_closeEntry]
  | _ => exact h.goto_of_same rfl rfl (fun hq => by contradiction) (fun hq => by contradiction)

theorem Checked.concat (h : s.Checked) (hcalls : t.calls = s.calls ++ [q])
    (hentries : t.entries = s.entries) (htaken : ∀ {e}, q ≠ .taken e true)
    (hholding : ∀ {e pending}, q ≠ .holding e pending) : t.Checked := by
  grind [Checked, getElem?_concat_eq_some, notified]

theorem Checked.notify (h : s.Checked) (hready : entry.closeCh.recv.isSome = true)
    : (s.setEntry e entry).Checked := by
  refine ⟨?_, h.holding⟩
  intro j e' hj
  by_cases heq : e' = e
  . unfold notified setEntry
    dsimp only
    rw [heq, update_self]
    exact hready
  . rw [notified_setEntry_of_ne heq]
    exact h.taken hj

theorem checked_step (howned : s.Owned) (h : s.Checked) {a : Action} (hstep : s.step a = some s')
    : s'.Checked := by
  cases step_move hstep with
  | acquire | saturated =>
    exact h.concat rfl rfl (fun hq => by contradiction) (fun hq => by contradiction)
  | call j a _ hmove => exact checked_of_callMove howned h hmove
  | drain | drainTake | drained => exact ⟨h.taken, h.holding⟩
  | drainClose j e =>
    refine ⟨?_, h.holding⟩
    intro i e' hi
    exact (notified_closeEntry s e e').trans (h.taken hi)
  | notifyClose e entry closeCh _ hready | closeNotify e entry closeCh _ hready =>
    exact h.notify hready

end State

open State

variable {size : Nat} {s : State size} {as : List Action}

theorem inv_of_run (hrun : Run.run State.step (.init size) as = some s)
    : s.Counted ∧ s.Owned ∧ s.Checked := by
  have hstep : ∀ (s : State size) a s', s.Counted ∧ s.Owned ∧ s.Checked → s.step a = some s' →
      s'.Counted ∧ s'.Owned ∧ s'.Checked := by
    intro s a s' ⟨hcounted, howned, hchecked⟩ hstep
    exact ⟨counted_step hcounted hstep, owned_step howned hstep, checked_step howned hchecked hstep⟩
  exact Run.inv_of_steps hstep ⟨counted_init size, owned_init size, checked_init size⟩ hrun

variable {p : CallPhase}

theorem State.Counted.sendToken (h : s.Counted) {j : Nat} (hcall : s.calls[j]? = some p)
    (hp : p.hasToken = true) : s.tokens.trySend () ≠ none := by
  intro hfull
  have hle := toNat_le_countP CallPhase.hasToken hcall
  have htokens := h.tokens
  rw [hp, toNat_true] at hle
  cases Chan.trySend_eq_none_iff.mp hfull with
  | inl hclosed =>
    rw [h.tokens_open] at hclosed
    contradiction
  | inr hcap => omega

theorem State.Counted.sendFree (h : s.Counted) {j : Nat} (hcall : s.calls[j]? = some p)
    (hp : p.occupies = true) (e : Nat) : s.free.trySend e ≠ none := by
  intro hfull
  have hle := toNat_le_countP CallPhase.occupies hcall
  have hroom := h.room
  rw [hp, toNat_true] at hle
  cases Chan.trySend_eq_none_iff.mp hfull with
  | inl hclosed =>
    rw [h.free_open] at hclosed
    contradiction
  | inr hcap => omega

theorem State.Owned.not_idle (h : s.Owned) {j e : Nat} (hcall : s.calls[j]? = some p)
    (hp : p.entry = some e) : e ∉ s.free.buf := by
  intro hmem
  have honce := h.once e
  have hle := toNat_le_countP (CallPhase.owns e) hcall
  have hlive : (s.live e).toNat ≤ 1 := toNat_le _
  have hpos : 0 < s.free.buf.count e := List.count_pos_iff.mpr hmem
  have howns : p.owns e = true := decide_eq_true hp
  rw [howns, toNat_true] at hle
  unfold owners at honce
  omega

theorem countP_hasToken (calls : List CallPhase)
    : calls.countP CallPhase.hasToken =
        calls.countP CallPhase.holds + calls.countP CallPhase.inAcquire +
          calls.countP CallPhase.inRelease := by
  have hfirst : calls.countP (fun p => p.holds || p.inAcquire) =
      calls.countP CallPhase.holds + calls.countP CallPhase.inAcquire := by
    apply countP_eq_add
    intro p
    cases p with
    | _ => rfl
  rw [← hfirst]
  apply countP_eq_add
  intro p
  cases p with
  | _ => rfl

theorem countP_occupies (calls : List CallPhase)
    : calls.countP CallPhase.occupies =
        calls.countP (fun p => p.entry.isSome) + calls.countP (fun p => p = .opening) := by
  apply countP_eq_add
  intro p
  cases p with
  | _ => rfl

namespace State

def held (s : State size) : Nat := s.calls.countP CallPhase.holds

def acquires (s : State size) : Nat := s.calls.countP CallPhase.inAcquire

def releases (s : State size) : Nat := s.calls.countP CallPhase.inRelease

def inHand (s : State size) : Nat := s.calls.countP (fun p => p.entry.isSome)

def opening (s : State size) : Nat := s.calls.countP (fun p => p = .opening)

def entryOf (s : State size) (j : Nat) : Option Nat := s.calls[j]?.bind CallPhase.entry

end State

/--
No token is lost, there is room for every entry and for every token that comes back, no entry is in
two places, and an entry with a pending close notification is not handed out.
-/
theorem conserved_of_run (hrun : Run.run State.step (.init size) as = some s)
    : s.tokens.buf.length + s.held + s.acquires + s.releases = size ∧
        s.free.buf.length + s.inHand + s.opening ≤ size ∧
        (∀ (j : Nat) r, s.calls[j]? = some (.failing r) ∨ s.calls[j]? = some .returning →
          s.tokens.trySend () ≠ none) ∧
        (∀ (j e : Nat), s.calls[j]? = some (.handingBack e) → s.free.trySend e ≠ none) ∧
        (∀ i j e, s.entryOf i = some e → s.entryOf j = some e → i = j) ∧
        (∀ j e, s.entryOf j = some e → e ∉ s.free.buf) ∧
        ∀ (j e : Nat) pending, s.calls[j]? = some (.holding e pending) → pending = false := by
  have ⟨hcounted, howned, hchecked⟩ := inv_of_run hrun
  have htokens := hcounted.tokens
  have hroom := hcounted.room
  rw [countP_hasToken] at htokens
  rw [countP_occupies] at hroom
  refine ⟨?_, ?_, ?_, ?_, ?_, ?_, ?_⟩
  . unfold held acquires releases
    omega
  . unfold inHand opening
    omega
  . intro j r hcall
    cases hcall with
    | _ hfailing => exact hcounted.sendToken hfailing rfl
  . intro j e hcall
    exact hcounted.sendFree hcall rfl e
  . intro i j e hi hj
    have ⟨p, hp, hpe⟩ := bind_eq_some_iff.mp hi
    have ⟨q, hq, hqe⟩ := bind_eq_some_iff.mp hj
    exact howned.call_eq hp hq hpe hqe
  . intro j e hj
    have ⟨p, hp, hpe⟩ := bind_eq_some_iff.mp hj
    exact howned.not_idle hp hpe
  . intro j e pending hcall
    exact hchecked.holding hcall

def deadEntryRun : List Action :=
  [.acquire, .call 0 .openFn, .call 0 .opened, .acquire, .call 0 .release, .call 0 .releaseCheck,
    .call 0 .handBack, .notifyClose 0, .call 0 .returnToken, .call 1 .token, .call 1 .take,
    .call 1 .check, .call 1 .discard, .call 1 .openFn, .call 1 .opened]

theorem conserved_of_run_deadEntry
    : ∃ s : State 1, Run.run State.step (.init 1) deadEntryRun = some s ∧ s.entryOf 1 = some 1 ∧
        s.tokens.buf.length + s.held + s.acquires + s.releases = 1 ∧ s.held = 1 := by
  have ⟨s, hrun, hs⟩ := map_eq_some_iff.mp
    (by decide : (Run.run State.step (.init 1 : State 1) deadEntryRun).map
      (fun s => (s.entryOf 1, s.held)) = some (some 1, 1))
  simp only [Prod.mk.injEq] at hs
  exact ⟨s, hrun, hs.1, (conserved_of_run hrun).1, hs.2⟩

end Pool
