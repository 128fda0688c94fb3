import Warren.Consumer.Pause.Lifecycle

/-!
Where the deliveries of a channel are that never dies.
-/

namespace Pause

open List Option

def PumpPhase.inHand : PumpPhase → Option Nat
  | .holding d => some d
  | _ => none

namespace State

variable {prefetch : Nat}

def reads (s : State prefetch) (i : Nat) : Prop :=
  s.loop ≠ .reopened ∧ (i = s.cur ∨ i ∈ s.resubCh.buf)

instance (s : State prefetch) (i : Nat) : Decidable (s.reads i) :=
  inferInstanceAs (Decidable (_ ∧ _))

def Reachable (s : State prefetch) (d : Nat) : Prop :=
  (∃ i sub, s.subs i = some sub ∧ d ∈ sub.queue) ∨
  (∃ i sub, s.subs i = some sub ∧ s.reads i ∧ (sub.pump.inHand = some d ∨ d ∈ sub.out.buf)) ∨
  s.loop = .acquiring d ∨
  d ∈ s.dispatched

def NoLoss (s : State prefetch) : Prop :=
  ∀ d ∈ s.handed, d ∉ s.settled → s.Reachable d

/-!
A pump may only take a delivery that the loop will read, and the loop may only leave a subscription
whose pump and buffer hold nothing.
-/

def Careful (s : State prefetch) : Action → Prop
  | .pump i .take => s.reads i
  | .loop .adopt => ∀ sub ∈ s.subs s.cur, sub.out.buf = [] ∧ sub.pump.inHand = none
  | _ => True

instance (s : State prefetch) (a : Action) : Decidable (s.Careful a) := by
  unfold Careful
  split <;> infer_instance

structure Follows (s s' : State prefetch) (i d : Nat) (sub sub' : Sub prefetch) : Prop where
  queue : d ∈ sub.queue →
    d ∈ sub'.queue ∨ (s'.reads i ∧ (sub'.pump.inHand = some d ∨ d ∈ sub'.out.buf))
  pumped : s.reads i → sub.pump.inHand = some d ∨ d ∈ sub.out.buf →
    (s'.reads i ∧ (sub'.pump.inHand = some d ∨ d ∈ sub'.out.buf)) ∨ s'.loop = .acquiring d

variable {s s' : State prefetch} {i d : Nat} {sub : Sub prefetch}

theorem Follows.refl (hreads : s.reads i → s'.reads i) : Follows s s' i d sub sub := by
  constructor
  . exact .inl
  . intro hr hd
    exact .inl ⟨hreads hr, hd⟩

theorem Reachable.move (h : s.Reachable d)
    (hsubs : ∀ i sub, s.subs i = some sub → ∃ sub', s'.subs i = some sub' ∧ Follows s s' i d sub sub')
    (hloop : s.loop = .acquiring d → s'.loop = .acquiring d ∨ d ∈ s'.dispatched)
    (hdispatched : d ∈ s.dispatched → d ∈ s'.dispatched) : s'.Reachable d := by
  rcases h with ⟨i, sub, hsub, hd⟩ | ⟨i, sub, hsub, hreads, hd⟩ | hd | hd
  . have ⟨sub', hsub', hfollows⟩ := hsubs i sub hsub
    cases hfollows.queue hd with
    | inl hd => exact .inl ⟨i, sub', hsub', hd⟩
    | inr hd => exact .inr (.inl ⟨i, sub', hsub', hd⟩)
  . have ⟨sub', hsub', hfollows⟩ := hsubs i sub hsub
    cases hfollows.pumped hreads hd with
    | inl hd => exact .inr (.inl ⟨i, sub', hsub', hd⟩)
    | inr hd => exact .inr (.inr (.inl hd))
  . exact .inr (.inr (hloop hd))
  . exact .inr (.inr (.inr (hdispatched hd)))

theorem NoLoss.move (h : s.NoLoss) (hhanded : s'.handed = s.handed)
    (hsettled : ∀ d, d ∉ s'.settled → d ∉ s.settled)
    (hsubs : ∀ i sub, s.subs i = some sub →
      ∃ sub', s'.subs i = some sub' ∧ ∀ d, Follows s s' i d sub sub')
    (hloop : ∀ d, s.loop = .acquiring d → s'.loop = .acquiring d ∨ d ∈ s'.dispatched)
    (hdispatched : ∀ d, d ∈ s.dispatched → d ∈ s'.dispatched) : s'.NoLoss := by
  intro d hd hnot
  rw [hhanded] at hd
  apply (h d hd (hsettled d hnot)).move _ (hloop d) (hdispatched d)
  intro i sub hsub
  have ⟨sub', hsub', hfollows⟩ := hsubs i sub hsub
  exact ⟨sub', hsub', hfollows d⟩

theorem NoLoss.setSub (h : s.NoLoss) {sub' : Sub prefetch} (hsub : s.subs i = some sub)
    (hs' : s' = { s.setSub i sub' with loop := s'.loop }) (hreads : ∀ j, s.reads j → s'.reads j)
    (hloop : ∀ d, s.loop = .acquiring d → s'.loop = .acquiring d)
    (hfollows : ∀ d, Follows s s' i d sub sub') : s'.NoLoss := by
  apply h.move
  . rw [hs']
    rfl
  . rw [hs']
    exact fun _ => id
  . intro j r hr
    by_cases hj : j = i
    . refine ⟨sub', by rw [hs']; simp [State.setSub, hj], ?_⟩
      rw [hj, hsub, some.injEq] at hr
      rw [hj, ← hr]
      exact hfollows
    . refine ⟨r, by rw [hs']; simp [State.setSub, hj, hr], ?_⟩
      intro d
      exact Follows.refl (hreads j)
  . intro d hd
    exact .inl (hloop d hd)
  . rw [hs']
    exact fun _ => id

theorem NoLoss.pumpTake (h : s.NoLoss) {queue : List Nat} (hreads : s.reads i)
    (hsub : s.subs i = some sub) (hpump : sub.pump = .idle) (hqueue : sub.queue = d :: queue)
    : (s.setSub i { sub with queue, pump := .holding d }).NoLoss := by
  refine h.setSub hsub rfl (fun _ => id) (fun _ => id) ?_
  intro x
  constructor
  . intro hx
    rw [hqueue, mem_cons] at hx
    cases hx with
    | inl hx => exact .inr ⟨hreads, .inl (by rw [hx]; rfl)⟩
    | inr hx => exact .inl hx
  . intro hreads hx
    simp only [hpump, PumpPhase.inHand, reduceCtorEq, false_or] at hx
    exact .inl ⟨hreads, .inr hx⟩

theorem NoLoss.pumpSend (h : s.NoLoss) {out : Chan Nat prefetch} (hsub : s.subs i = some sub)
    (hpump : sub.pump = .holding d) (hsend : sub.out.trySend d = some out)
    : (s.setSub i { sub with out, pump := .idle }).NoLoss := by
  rw [Chan.trySend_eq_some_iff] at hsend
  refine h.setSub hsub rfl (fun _ => id) (fun _ => id) ?_
  intro x
  constructor
  . exact .inl
  . intro hreads hx
    refine .inl ⟨hreads, .inr ?_⟩
    simp only [hpump, PumpPhase.inHand, some.injEq] at hx
    rw [hsend.2.2.1, mem_append, mem_singleton]
    cases hx with
    | inl hx => exact .inr hx.symm
    | inr hx => exact .inl hx

theorem NoLoss.setPump (h : s.NoLoss) {sub' : Sub prefetch} (hsub : s.subs i = some sub)
    (hhand : sub.pump.inHand = none) (hqueue : sub'.queue = sub.queue)
    (hout : sub'.out.buf = sub.out.buf) : (s.setSub i sub').NoLoss := by
  refine h.setSub hsub rfl (fun _ => id) (fun _ => id) ?_
  intro d
  constructor
  . rw [hqueue]
    exact .inl
  . intro hreads hd
    rw [hhand] at hd
    refine .inl ⟨hreads, .inr ?_⟩
    rw [hout]
    simpa using hd

theorem NoLoss.pumpStep (h : s.NoLoss) (hlife : s.Lifecycle) {a : PumpAction}
    (ha : s.Careful (.pump i a)) (hstep : s.pumpStep i a = some s') : s'.NoLoss := by
  have ⟨sub, hsub, hmove⟩ := pumpStep_move hstep
  cases hmove with
  | take d queue hpump hqueue => exact h.pumpTake ha hsub hpump hqueue
  | send d out hpump hsend => exact h.pumpSend hsub hpump hsend
  | seeClosed hpump => exact h.setPump hsub (by rw [hpump]; rfl) rfl rfl
  | drainClose hpump =>
    simp only [drainClose, hlife.closeCh]
    exact h.setPump hsub (by rw [hpump]; rfl) rfl rfl
  | drainCancel death hpump =>
    simp only [drainCancel, hlife.cancelCh]
    exact h.setPump hsub (by rw [hpump]; rfl) rfl rfl
  | readPaused death hpump =>
    unfold readPaused
    split
    . exact h.setPump hsub (by rw [hpump]; rfl) rfl rfl
    . exact h.setPump hsub (by rw [hpump]; rfl) rfl rfl
  | closeDone hpump =>
    have hset : (s.setSub i { sub with pump := .exited, out := sub.out.close }).NoLoss :=
      h.setPump hsub (by rw [hpump]; rfl) rfl rfl
    exact hset
  | recvCancel _ _ hrecv => simp [recvCancel, hlife.cancelCh] at hrecv
  | recvClose _ _ hrecv => simp [recvClose, hlife.closeCh] at hrecv
  | ctx _ hctx => simp [hlife.ctxDone] at hctx

theorem NoLoss.muFrame (h : s.NoLoss) (hhanded : s'.handed = s.handed)
    (hsettled : s'.settled = s.settled) (hdispatched : s'.dispatched = s.dispatched)
    (hloop : s'.loop = s.loop) (hreads : ∀ i, s.reads i → s'.reads i)
    (hsubs : ∀ i sub, s.subs i = some sub → ∃ closed, s'.subs i = some { sub with closed })
    : s'.NoLoss := by
  apply h.move hhanded
  . rw [hsettled]
    exact fun _ => id
  . intro i sub hsub
    have ⟨closed, hsub'⟩ := hsubs i sub hsub
    refine ⟨_, hsub', ?_⟩
    intro d
    constructor
    . exact .inl
    . intro hr hd
      exact .inl ⟨hreads i hr, hd⟩
  . rw [hloop]
    exact fun _ => .inl
  . rw [hdispatched]
    exact fun _ => id

theorem NoLoss.cancelActive (h : s.NoLoss) : NoLoss { s.cancelActive with mu := .free } := by
  rw [cancelActive_eq]
  refine h.muFrame rfl rfl rfl rfl ?_ ?_
  . exact fun _ => id
  . intro i sub hsub
    have ⟨closed, hsub', _⟩ := cancelActive_subs_of_some hsub
    exact ⟨closed, hsub'⟩

theorem NoLoss.resubscribeLocked (h : s.NoLoss) (hlife : s.Lifecycle)
    : s.resubscribeLocked.NoLoss := by
  refine h.muFrame rfl rfl rfl rfl ?_ ?_
  . exact fun _ => id
  . intro i sub hsub
    have hlt := (hlife.subs i sub hsub).lt_next
    refine ⟨sub.closed, ?_⟩
    simp only [State.resubscribeLocked, State.setSub, Function.update_apply]
    rw [if_neg (by omega)]
    exact hsub

theorem NoLoss.resumeSend (h : s.NoLoss) {resubCh : Chan Nat 1}
    (hsend : s.resubCh.trySend i = some resubCh)
    : NoLoss { s with resubCh, mu := .handedOver } := by
  rw [Chan.trySend_eq_some_iff] at hsend
  refine h.muFrame rfl rfl rfl rfl ?_ ?_
  . intro j hreads
    refine ⟨hreads.1, hreads.2.imp_right ?_⟩
    intro hj
    rw [hsend.2.2.1]
    exact mem_append_left _ hj
  . intro j sub hsub
    exact ⟨sub.closed, hsub⟩

theorem NoLoss.muStep (h : s.NoLoss) (hlife : s.Lifecycle) {a : MuAction}
    (hstep : s.muStep a = some s') : s'.NoLoss := by
  cases muStep_move hstep with
  | cancel => exact h.cancelActive
  | resubscribe => exact h.resubscribeLocked hlife
  | send i resubCh _ hsend => exact h.resumeSend hsend
  | _ => exact h

theorem NoLoss.adopt (h : s.NoLoss) (ha : s.Careful (.loop .adopt)) (hselect : s.inSelect)
    {resubCh : Chan Nat 1} (hbuf : s.resubCh.buf = [i])
    : NoLoss { s with cur := i, resubCh, loop := .selecting } := by
  refine h.move rfl ?_ ?_ ?_ ?_
  . exact fun _ => id
  . intro j sub hsub
    refine ⟨sub, hsub, ?_⟩
    intro d
    constructor
    . exact .inl
    . intro hreads hd
      cases hreads.2 with
      -- what the loop leaves behind is empty
      | inl hcur =>
        have hnothing := ha sub (hcur ▸ hsub)
        simp [hnothing.1, hnothing.2] at hd
      | inr hmem =>
        rw [hbuf, mem_singleton] at hmem
        exact .inl ⟨⟨by simp, .inl hmem⟩, hd⟩
  . intro d hloop
    simp [inSelect, hloop] at hselect
  . exact fun _ => id

theorem NoLoss.recvCur (h : s.NoLoss) (hselecting : s.loop = .selecting) {out : Chan Nat prefetch}
    (hsub : s.subs s.cur = some sub) (hrecv : sub.out.recv = some (some d, out))
    : NoLoss { s.setSub s.cur { sub with out } with loop := .acquiring d } := by
  rw [Chan.recv_eq_some_some_iff] at hrecv
  refine h.setSub hsub rfl ?_ ?_ ?_
  . intro j hj
    exact ⟨by simp, hj.2⟩
  . simp [hselecting]
  . intro x
    constructor
    . exact .inl
    . intro hr hx
      have hreads : reads { s.setSub s.cur { sub with out } with loop := .acquiring d } s.cur :=
        ⟨by simp, hr.2⟩
      rw [hrecv.1, mem_cons] at hx
      rcases hx with hx | hx | hx
      . exact .inl ⟨hreads, .inl hx⟩
      . exact .inr (by rw [hx])
      . exact .inl ⟨hreads, .inr hx⟩

theorem NoLoss.acquire (h : s.NoLoss) (hloop : s.loop = .acquiring d)
    : NoLoss { s with
        handlers := s.handlers ++ [d]
        dispatched := s.dispatched ++ [d]
        loop := .selecting } := by
  refine h.move rfl ?_ ?_ ?_ ?_
  . exact fun _ => id
  . intro i sub hsub
    refine ⟨sub, hsub, ?_⟩
    intro x
    exact Follows.refl (fun hreads => ⟨by simp, hreads.2⟩)
  . intro x hx
    rw [hloop, LoopPhase.acquiring.injEq] at hx
    simp [hx]
  . intro x hx
    exact mem_append_left _ hx

theorem NoLoss.loopFrame (h : s.NoLoss) (hlife' : s'.Lifecycle)
    (hsame : s' = { s with loop := s'.loop, cancelReasonCh := s'.cancelReasonCh })
    (hloop : ∀ d, s.loop ≠ .acquiring d) : s'.NoLoss := by
  have hreads : ∀ j, s.reads j → s'.reads j := by
    intro j hj
    refine ⟨hlife'.loop, ?_⟩
    rw [hsame]
    exact hj.2
  apply h.move
  . rw [hsame]
  . rw [hsame]
    exact fun _ => id
  . intro i sub hsub
    refine ⟨sub, by rw [hsame]; exact hsub, ?_⟩
    intro d
    exact Follows.refl (hreads i)
  . intro d hd
    exact absurd hd (hloop d)
  . rw [hsame]
    exact fun _ => id

theorem NoLoss.loopStep (h : s.NoLoss) (hlife : s.Lifecycle) {a : LoopAction}
    (ha : s.Careful (.loop a)) (hstep : s.loopStep a = some s') : s'.NoLoss := by
  have hlife' := hlife.loopStep hstep
  cases loopStep_move hstep with
  | adopt i resubCh hselect hbuf => exact h.adopt ha hselect hbuf
  | recv sub d out hselecting hsub hrecv => exact h.recvCur hselecting hsub hrecv
  | acquire d hacquiring => exact h.acquire hacquiring
  | seeClosed sub hselecting => exact h.loopFrame hlife' rfl (by simp [hselecting])
  | readPaused hsaw => exact h.loopFrame hlife' rfl (by simp [hsaw])
  | reopen hrecovering => exact h.loopFrame hlife' rfl (by simp [hrecovering])
  | stop hselect | brokerCancel cancelReasonCh hselect =>
    apply h.loopFrame hlife' rfl
    intro d hd
    simp [inSelect, hd] at hselect

theorem NoLoss.deliver (h : s.NoLoss) (hsub : s.subs i = some sub)
    : NoLoss { s.setSub i { sub with queue := sub.queue ++ [d] } with
        handed := s.handed ++ [d] } := by
  intro x hx hnot
  rw [mem_append, mem_singleton] at hx
  cases hx with
  | inl hx =>
    apply (h x hx hnot).move
    . intro j r hr
      by_cases hj : j = i
      . rw [hj, hsub, some.injEq] at hr
        refine ⟨{ sub with queue := sub.queue ++ [d] }, by simp [State.setSub, hj], ?_⟩
        rw [← hr]
        constructor
        . intro hq
          exact .inl (mem_append_left _ hq)
        . intro hreads hp
          exact .inl ⟨hreads, hp⟩
      . exact ⟨r, by simp [State.setSub, hj, hr], Follows.refl id⟩
    . exact .inl
    . exact id
  | inr hx =>
    left
    refine ⟨i, { sub with queue := sub.queue ++ [d] }, by simp [State.setSub], ?_⟩
    simp [hx]

theorem NoLoss.envStep (h : s.NoLoss) (hlife : s.Lifecycle) {a : EnvAction}
    (hquiet : (Action.env a).quiet) (hstep : s.envStep a = some s') : s'.NoLoss := by
  cases envStep_move hstep with
  | deliver d i sub _ hsub => exact h.deliver hsub
  | settle d =>
    intro x hx hnot
    apply h x hx
    intro hx'
    exact hnot (mem_append_left _ hx')
  | suppress => exact h
  | dieStreams hdied => simp [hlife.died] at hdied
  | cancelByBrokerStream hcancelled => simp [hlife.brokerCancelled] at hcancelled
  | _ => contradiction

theorem noLoss_step {a : Action} (h : s.Lifecycle ∧ s.NoLoss) (ha : a.quiet ∧ s.Careful a)
    (hstep : s.step a = some s') : s'.Lifecycle ∧ s'.NoLoss := by
  refine ⟨h.1.step ha.1 hstep, ?_⟩
  cases a with
  | pump i a => exact h.2.pumpStep h.1 ha.2 hstep
  | mu a => exact h.2.muStep h.1 hstep
  | loop a => exact h.2.loopStep h.1 ha.2 hstep
  | env a => exact h.2.envStep h.1 ha.1 hstep

end State

open State

/-!
The delivery 3 is buffered in `cur.ch` when the loop takes the resumed subscription. It stays
unacknowledged on a channel that is alive.
-/

def resumeOverBufferRun : List Action :=
  [.env (.deliver 3), .pump 0 .take, .pump 0 .send, .mu .pauseBegin, .mu .pauseOk,
    .mu .resumeBegin, .mu .resumeConsumeOk, .mu .resumeSend, .mu .resumeClear, .loop .adopt]

theorem resumeOverBufferRun_loses
    : ∃ s : State 64, Run.run step (.init 64 1) resumeOverBufferRun = some s ∧
        Run.Along step (fun _ a => a.quiet) (init 64 1) resumeOverBufferRun ∧
        3 ∈ s.handed ∧ 3 ∉ s.settled ∧ ¬s.Reachable 3 := by
  have hquiet : Run.Along step (fun _ a => a.quiet) (init 64 1) resumeOverBufferRun := by
    decide
  have hloop : (Run.run step (init 64 1) resumeOverBufferRun).map
      (fun s => (s.next, s.cur, s.resubCh.buf, s.loop)) = some (2, 1, [], .selecting) := by decide
  have hlists : (Run.run step (init 64 1) resumeOverBufferRun).map
      (fun s => (s.dispatched, s.handed, s.settled)) = some ([], [3], []) := by decide
  have hsubs : (Run.run step (init 64 1) resumeOverBufferRun).map
      (fun s => ((s.subs 0).map Sub.queue,
        (s.subs 1).map (fun sub => (sub.queue, sub.pump, sub.out.buf)))) =
      some (some [], some ([], .idle, [])) := by decide
  have ⟨s, hrun, hs⟩ := map_eq_some_iff.mp hloop
  rw [hrun, map_some, some.injEq] at hlists hsubs
  simp only [Prod.mk.injEq, map_eq_some_iff] at hs hlists hsubs
  have ⟨⟨sub₀, hsub₀, hqueue₀⟩, sub₁, hsub₁, hqueue₁, hpump₁, hout₁⟩ := hsubs
  have hlife := Run.inv_of_run (fun s a s' (h : s.Lifecycle) => h.step)
    (Lifecycle.init 1) hquiet hrun
  have hcases : ∀ i sub, s.subs i = some sub → (i = 0 ∧ sub = sub₀) ∨ (i = 1 ∧ sub = sub₁) := by
    intro i sub hsub
    have hlt := (hlife.subs i sub hsub).lt_next
    rw [hs.1] at hlt
    have hi : i = 0 ∨ i = 1 := by omega
    cases hi with
    | inl hi =>
      rw [hi, hsub₀, some.injEq] at hsub
      exact .inl ⟨hi, hsub.symm⟩
    | inr hi =>
      rw [hi, hsub₁, some.injEq] at hsub
      exact .inr ⟨hi, hsub.symm⟩
  refine ⟨s, hrun, hquiet, by simp [hlists], by simp [hlists], ?_⟩
  intro hreach
  rcases hreach with ⟨i, sub, hsub, hd⟩ | ⟨i, sub, hsub, hreads, hd⟩ | hd | hd
  . cases hcases i sub hsub with
    | inl h => simp [h.2, hqueue₀] at hd
    | inr h => simp [h.2, hqueue₁] at hd
  . cases hcases i sub hsub with
    | inl h => simp [reads, hs, h.1] at hreads
    | inr h => simp [h.2, hpump₁, hout₁, PumpPhase.inHand] at hd
  . simp [hs] at hd
  . simp [hlists] at hd

theorem noLoss_of_careful {prefetch concurrency : Nat} {as : List Action} {s : State prefetch}
    (hcareful : Run.Along step (fun s a => a.quiet ∧ s.Careful a)
      (.init prefetch concurrency) as)
    (hrun : Run.run step (.init prefetch concurrency) as = some s)
    : ∀ d ∈ s.handed, d ∉ s.settled → s.Reachable d := by
  have hinit : (init prefetch concurrency).NoLoss := by
    simp [NoLoss, init]
  have h := Run.inv_of_run (I := fun s => s.Lifecycle ∧ s.NoLoss) (fun s a s' => noLoss_step)
    ⟨Lifecycle.init concurrency, hinit⟩ hcareful hrun
  exact h.2

def drainedResumeRun : List Action :=
  [.env (.deliver 3), .pump 0 .take, .pump 0 .send, .mu .pauseBegin, .mu .pauseOk, .loop .recv,
    .loop .acquire, .mu .resumeBegin, .mu .resumeConsumeOk, .mu .resumeRollback,
    .mu (.resumeCancel true), .mu .resumeBegin, .mu .resumeConsumeOk, .mu .resumeSend, .loop .adopt,
    .mu .resumeClear, .env (.deliver 4), .pump 2 .take, .env (.settle 3)]

theorem noLoss_of_careful_drainedResumeRun
    : ∃ s : State 64, Run.run step (.init 64 1) drainedResumeRun = some s ∧
        4 ∈ s.handed ∧ 4 ∉ s.settled ∧ s.Reachable 4 := by
  have hfinal : (Run.run step (init 64 1) drainedResumeRun).map
      (fun s => (s.handed, s.settled)) = some ([3, 4], [3]) := by decide
  have ⟨s, hrun, hs⟩ := map_eq_some_iff.mp hfinal
  rw [Prod.mk.injEq] at hs
  have hhanded : 4 ∈ s.handed := by simp [hs.1]
  have hsettled : 4 ∉ s.settled := by simp [hs.2]
  exact ⟨s, hrun, hhanded, hsettled, noLoss_of_careful (by decide) hrun 4 hhanded hsettled⟩

/--
However `Pause` and `Resume` interleave with the loop, one stream at most is open, and a consumer
that is not paused comes to read that one.
-/
theorem oneStream_of_quiet {prefetch concurrency : Nat} {as : List Action} {s : State prefetch}
    (hquiet : Run.Along step (fun _ a => a.quiet) (.init prefetch concurrency) as)
    (hrun : Run.run step (.init prefetch concurrency) as = some s)
    : (∀ i j sub sub', s.subs i = some sub → s.subs j = some sub' →
          sub.closed = false → sub'.closed = false → i = j)
        ∧ (s.paused = false → s.active = some s.target) := by
  have h := Run.inv_of_run (fun s a s' (h : s.Lifecycle) => h.step) (Lifecycle.init concurrency)
    hquiet hrun
  refine ⟨?_, fun hpaused => h.target (.inl hpaused)⟩
  intro i j sub sub' hi hj hopen hopen'
  have hactive := (h.subs i sub hi).open_iff.mp hopen
  have hactive' := (h.subs j sub' hj).open_iff.mp hopen'
  exact Option.some.inj (hactive.symm.trans hactive')

theorem oneStream_of_quiet_drainedResumeRun
    : ∃ s : State 64, Run.run step (.init 64 1) drainedResumeRun = some s ∧
        s.paused = false ∧ s.active = some s.target := by
  obtain ⟨s, hrun, hpaused⟩ := (by decide :
    ∃ s ∈ Run.run step (init 64 1 : State 64) drainedResumeRun, s.paused = false)
  exact ⟨s, hrun, hpaused, (oneStream_of_quiet (by decide) hrun).2 hpaused⟩

end Pause
