import Warren.Rpc.Caller.Replies

/-!
A delivery is in the hand of one dispatcher from its arrival until it is acked.
-/

namespace Rpc

open List Option
open Procs

variable {Id Body Resp : Type}

def Session.has (n : Nat) (session : Session) : Bool := session.dispatch.hand = some n

namespace State

def hands (s : State Id Body Resp) (n : Nat) : Nat := s.sessions.countP (Session.has n)

def ackable (cfg : Config Body Resp) (s : State Id Body Resp) (n : Nat) : Bool :=
  cfg.useExclusiveQueue && s.deliveries[n]?.any (·.acknowledger)

structure Acked (cfg : Config Body Resp) (s : State Id Body Resp) : Prop where
  mode : ∀ {k : Nat} {session}, s.sessions[k]? = some session →
    session.ackReplies = cfg.useExclusiveQueue
  hands_eq : ∀ {n}, s.deliveries.length ≤ n → s.hands n = 0
  once : ∀ n, s.ackable cfg n = true → s.acks.count n + s.hands n = 1
  never : ∀ n, s.ackable cfg n = false → s.acks.count n = 0

variable {cfg : Config Body Resp} {s s' t : State Id Body Resp}

theorem acked_init : (init : State Id Body Resp).Acked cfg where
  mode := by
    intro k session h
    contradiction
  hands_eq := fun _ => rfl
  once := by
    intro n h
    simp [ackable, init] at h
  never := fun _ _ => rfl

theorem Acked.frame (h : s.Acked cfg) (hdeliveries : t.deliveries = s.deliveries)
    (hacks : t.acks = s.acks)
    (hmode : ∀ {k : Nat} {session}, t.sessions[k]? = some session →
      session.ackReplies = cfg.useExclusiveQueue)
    (hhands : ∀ n, t.hands n = s.hands n) : t.Acked cfg := by
  grind [Acked, ackable]

variable {k : Nat} {session session' : Session}

theorem Acked.mode_set (h : s.Acked cfg) (hsession : s.sessions[k]? = some session) {i : Nat}
    {session₁ : Session} (hi : (s.sessions.set k session')[i]? = some session₁)
    (hack : session'.ackReplies = session.ackReplies)
    : session₁.ackReplies = cfg.useExclusiveQueue := by
  rcases getElem?_set_eq_some hi with ⟨_, heq⟩ | ⟨_, hold⟩
  . rw [heq, hack]
    exact h.mode hsession
  . exact h.mode hold

theorem Acked.of_count (h : s.Acked cfg) (hsession : s.sessions[k]? = some session)
    (hsessions : t.sessions = s.sessions.set k session') (hdeliveries : t.deliveries = s.deliveries)
    (hack : session'.ackReplies = session.ackReplies)
    (hhas : ∀ n, session'.has n = true → session.has n = true)
    (honce : ∀ n, s.ackable cfg n = true →
      t.acks.count n + (session'.has n).toNat = s.acks.count n + (session.has n).toNat)
    (hnever : ∀ n, s.ackable cfg n = false → t.acks.count n = s.acks.count n) : t.Acked cfg := by
  have hset : ∀ n, t.hands n + (session.has n).toNat = s.hands n + (session'.has n).toNat := by
    intro n
    unfold hands
    rw [hsessions]
    exact countP_set (Session.has n) hsession session'
  have hackable : ∀ n, t.ackable cfg n = s.ackable cfg n := by
    intro n
    unfold ackable
    rw [hdeliveries]
  refine ⟨fun hi => h.mode_set hsession (hsessions ▸ hi) hack, ?_, ?_, ?_⟩
  . intro n hn
    have hzero := h.hands_eq (hdeliveries ▸ hn)
    have hle : (session'.has n).toNat ≤ (session.has n).toNat := by
      cases hnew : session'.has n with
      | false => exact Nat.zero_le _
      | true => exact Nat.le_of_eq (by rw [hhas n hnew])
    have := hset n
    omega
  . intro n hn
    rw [hackable] at hn
    have := h.once n hn
    have := honce n hn
    have := hset n
    omega
  . intro n hn
    rw [hackable] at hn
    exact (hnever n hn).trans (h.never n hn)

theorem Acked.setSession (h : s.Acked cfg) (hsession : s.sessions[k]? = some session)
    (hsessions : t.sessions = s.sessions.set k session') (hdeliveries : t.deliveries = s.deliveries)
    (hacks : t.acks = s.acks) (hack : session'.ackReplies = session.ackReplies)
    (hhand : session'.dispatch.hand = session.dispatch.hand) : t.Acked cfg := by
  have hhas : ∀ n, session'.has n = session.has n := by
    intro n
    unfold Session.has
    rw [hhand]
  refine h.of_count hsession hsessions hdeliveries hack ?_ ?_ ?_
  . intro n hn
    rwa [hhas] at hn
  . intro n _
    rw [hacks, hhas]
  . intro n _
    rw [hacks]

theorem load_cases (s : State Id Body Resp) (n : Nat)
    : (∃ slot, s.load n = .sending n slot) ∨ s.load n = .acking n := by
  unfold load
  split
  . next slot _ => exact .inl ⟨slot, rfl⟩
  . exact .inr rfl

theorem hand_load (s : State Id Body Resp) (n : Nat) : (s.load n).hand = some n := by
  rcases s.load_cases n with ⟨slot, hload⟩ | hload
  . rw [hload]
    rfl
  . rw [hload]
    rfl

variable {n : Nat}

theorem Acked.ack (h : s.Acked cfg) (hsession : s.sessions[k]? = some session)
    (hdispatch : session.dispatch = .acking n)
    : ((s.ack session n).setSession k { session with dispatch := .receiving }).Acked cfg := by
  have hhas : ∀ m, session.has m = decide (some n = some m) := by
    intro m
    unfold Session.has
    rw [hdispatch]
    rfl
  have hackable : (session.ackReplies = true ∧ s.deliveries[n]?.any (·.acknowledger) = true) ↔
      s.ackable cfg n = true := by
    unfold ackable
    rw [h.mode hsession, Bool.and_eq_true]
  unfold State.ack
  split
  . next hcond =>
    refine h.of_count hsession rfl rfl rfl (fun _ hno => by contradiction) ?_ ?_
    . intro m _
      show (s.acks ++ [n]).count m + 0 = s.acks.count m + (session.has m).toNat
      rw [hhas, count_append]
      by_cases heq : n = m
      all_goals simp [heq]
    . intro m hm
      show (s.acks ++ [n]).count m = s.acks.count m
      have hne : n ≠ m := by
        intro heq
        rw [← heq, hackable.mp hcond] at hm
        contradiction
      simp [count_append, hne]
  . next hcond =>
    refine h.of_count hsession rfl rfl rfl (fun _ hno => by contradiction) ?_ (fun _ _ => rfl)
    intro m hm
    show s.acks.count m + 0 = s.acks.count m + (session.has m).toNat
    have hne : n ≠ m := by
      intro heq
      exact hcond (hackable.mpr (heq ▸ hm))
    simp [hhas, hne]

theorem Acked.deliver (h : s.Acked cfg) (d : Delivery Id Body)
    (hsession : s.sessions[k]? = some session) (hdispatch : session.dispatch = .receiving)
    : { s.setSession k { session with dispatch := .loading s.deliveries.length } with
        deliveries := s.deliveries ++ [d] }.Acked cfg := by
  have hset : ∀ n, (s.sessions.set k
      { session with dispatch := .loading s.deliveries.length }).countP (Session.has n) =
        s.hands n + (decide (some s.deliveries.length = some n)).toNat := by
    intro n
    have hcount := countP_set (Session.has n) hsession
      { session with dispatch := .loading s.deliveries.length }
    have hno : session.has n = false := by
      unfold Session.has
      rw [hdispatch]
      rfl
    rw [hno] at hcount
    exact hcount
  have hlast : s.ackable cfg s.deliveries.length = false := by
    simp [ackable]
  have hsame : ∀ {n}, n ≠ s.deliveries.length → (s.deliveries ++ [d])[n]? = s.deliveries[n]? := by
    intro n hne
    by_cases hlt : n < s.deliveries.length
    . exact getElem?_append_left hlt
    . have hlen : (s.deliveries ++ [d]).length ≤ n := by
        rw [length_append, length_singleton]
        omega
      rw [getElem?_eq_none hlen, getElem?_eq_none (by omega)]
  refine ⟨fun hi => h.mode_set hsession hi rfl, ?_, ?_, ?_⟩
  . intro n hn
    have hlen : s.deliveries.length + 1 ≤ n := by simpa using hn
    have hzero := h.hands_eq (n := n) (by omega)
    have hne : ¬some s.deliveries.length = some n := by
      rw [some.injEq]
      omega
    refine (hset n).trans ?_
    rw [hzero, decide_eq_false hne]
    rfl
  . intro n hn
    show s.acks.count n + (s.sessions.set k _).countP (Session.has n) = 1
    rw [hset]
    by_cases heq : n = s.deliveries.length
    . subst heq
      rw [h.never _ hlast, h.hands_eq (Nat.le_refl _), decide_eq_true rfl]
      rfl
    . have hold : s.ackable cfg n = true := by
        unfold ackable at hn ⊢
        rwa [hsame heq] at hn
      have hne : ¬some s.deliveries.length = some n := by
        rw [some.injEq]
        exact Ne.symm heq
      rw [decide_eq_false hne]
      exact h.once n hold
  . intro n hn
    by_cases heq : n = s.deliveries.length
    . exact h.never n (heq ▸ hlast)
    . refine h.never n ?_
      unfold ackable at hn ⊢
      rwa [hsame heq] at hn

theorem acked_of_dispatchMove (h : s.Acked cfg) {a : DispatchAction}
    (hsession : s.sessions[k]? = some session) (hmove : s.DispatchMove k session a s')
    : s'.Acked cfg := by
  cases hmove with
  | load n hdispatch =>
    refine h.setSession hsession rfl rfl rfl rfl ?_
    rw [hdispatch]
    exact hand_load s n
  | send n slot hdispatch =>
    unfold send
    split
    . exact h.setSession hsession rfl rfl rfl rfl (by rw [hdispatch]; rfl)
    . exact h.setSession hsession rfl rfl rfl rfl (by rw [hdispatch]; rfl)
  | ack n hdispatch => exact h.ack hsession hdispatch
  | exit hdispatch => exact h.setSession hsession rfl rfl rfl rfl (by rw [hdispatch]; rfl)

variable [DecidableEq Id]

theorem acked_step (h : s.Acked cfg) {a : Action Id Body} (hstep : s.step cfg a = some s')
    : s'.Acked cfg := by
  cases step_move hstep with
  | begin | close => exact h.frame rfl rfl h.mode (fun _ => rfl)
  | call j a _ hmove =>
    cases hmove with
    | opened broker session _ hopen =>
      have ⟨hreceiving, hmode⟩ := openSession_eq_ok hopen
      refine h.frame rfl rfl ?_ ?_
      . intro k session' hk
        rcases getElem?_concat_eq_some hk with ⟨_, heq⟩ | hold
        . rw [heq]
          exact hmode
        . exact h.mode hold
      . intro n
        have hno : session.has n = false := by
          unfold Session.has
          rw [hreceiving]
          rfl
        show (s.sessions ++ [session]).countP (Session.has n) = _
        rw [countP_concat, hno]
        rfl
    | _ => exact h.frame rfl rfl h.mode (fun _ => rfl)
  | closeAgain => exact h
  | closeSession k session hsession | sessionDies k session hsession =>
    exact h.setSession hsession rfl rfl rfl rfl rfl
  | deliver k d session hsession hdispatch => exact h.deliver d hsession hdispatch
  | dispatch k session a _ hsession hmove => exact acked_of_dispatchMove h hsession hmove
  | noSession => exact h

theorem inv_of_run {as : List (Action Id Body)} (hrun : Run.run (step cfg) init as = some s)
    : s.Routed cfg ∧ s.Acked cfg := by
  refine Run.inv_of_steps (I := fun s => Routed cfg s ∧ Acked cfg s) ?_ ⟨routed_init, acked_init⟩ hrun
  intro s a s' h hstep
  exact ⟨routed_step h.1 hstep, acked_step h.2 hstep⟩

theorem send_isSome {slot : Nat} (hsession : s.sessions[k]? = some session)
    (hdispatch : session.dispatch = .sending n slot)
    : (s.step cfg (.dispatch k .send)).isSome = true := by
  simp [step, dispatchStep, hsession, hdispatch]

theorem Acked.count_of_acking (h : s.Acked cfg) (hn : s.ackable cfg n = true)
    (hsession : s.sessions[k]? = some session) (hdispatch : session.dispatch = .acking n)
    : ∃ s', s.step cfg (.dispatch k .ack) = some s' ∧ s'.acks.count n = 1 := by
  have hstep : s.step cfg (.dispatch k .ack) =
      some ((s.ack session n).setSession k { session with dispatch := .receiving }) := by
    simp [step, dispatchStep, hsession, hdispatch]
  refine ⟨_, hstep, ?_⟩
  have hacked := acked_step h hstep
  have hcond : session.ackReplies = true ∧ s.deliveries[n]?.any (·.acknowledger) = true := by
    rw [h.mode hsession]
    exact Bool.and_eq_true_iff.mp hn
  have hacks : ((s.ack session n).setSession k { session with dispatch := .receiving }).acks =
      s.acks ++ [n] := by
    unfold State.ack
    rw [if_pos hcond]
    rfl
  have hsame : ((s.ack session n).setSession k { session with dispatch := .receiving }).deliveries =
      s.deliveries := by
    unfold State.ack
    rw [if_pos hcond]
    rfl
  have honce := hacked.once n (by unfold ackable at hn ⊢; rwa [hsame])
  rw [hacks, count_append, count_singleton_self] at honce ⊢
  omega

theorem Acked.count_of_sending (h : s.Acked cfg) {slot : Nat} (hn : s.ackable cfg n = true)
    (hsession : s.sessions[k]? = some session) (hdispatch : session.dispatch = .sending n slot)
    : ∃ s', Run.run (step cfg) s [.dispatch k .send, .dispatch k .ack] = some s' ∧
        s'.acks.count n = 1 := by
  have hstep : s.step cfg (.dispatch k .send) =
      some ((s.send n slot).setSession k { session with dispatch := .acking n }) := by
    simp [step, dispatchStep, hsession, hdispatch]
  have hsessions : (s.send n slot).sessions = s.sessions := by
    unfold send
    split
    . rfl
    . rfl
  have hsame : (s.send n slot).deliveries = s.deliveries := by
    unfold send
    split
    . rfl
    . rfl
  have hacking : ((s.send n slot).setSession k { session with dispatch := .acking n }).sessions[k]? =
      some { session with dispatch := .acking n } := by
    unfold State.setSession
    rw [hsessions]
    exact getElem?_set_of_eq_some hsession _
  have hn' : ackable cfg ((s.send n slot).setSession k { session with dispatch := .acking n }) n =
      true := by
    unfold State.setSession
    unfold ackable at hn ⊢
    rwa [hsame]
  have ⟨s', hack, hcount⟩ := (acked_step h hstep).count_of_acking hn' hacking rfl
  exact ⟨s', by rw [Run.run_cons_of_step _ hstep, Run.run_singleton_of_step hack], hcount⟩

theorem Acked.count_of_hand (h : s.Acked cfg) (hn : s.ackable cfg n = true)
    (hsession : s.sessions[k]? = some session) (hhand : session.dispatch.hand = some n)
    : ∃ (ds : List DispatchAction) (s' : State Id Body Resp),
        Run.run (step cfg) s (ds.map (.dispatch k)) = some s' ∧ s'.acks.count n = 1 := by
  cases hdispatch : session.dispatch with
  | receiving | exited => rw [hdispatch] at hhand; contradiction
  | acking m =>
    rw [hdispatch] at hhand
    obtain rfl := some.inj hhand
    have ⟨s', hack, hcount⟩ := h.count_of_acking hn hsession hdispatch
    exact ⟨[.ack], s', Run.run_singleton_of_step hack, hcount⟩
  | sending m slot =>
    rw [hdispatch] at hhand
    obtain rfl := some.inj hhand
    have ⟨s', hrun, hcount⟩ := h.count_of_sending hn hsession hdispatch
    exact ⟨[.send, .ack], s', hrun, hcount⟩
  | loading m =>
    rw [hdispatch] at hhand
    obtain rfl := some.inj hhand
    have hstep : s.step cfg (.dispatch k .load) =
        some (s.setSession k { session with dispatch := s.load m }) := by
      simp [step, dispatchStep, hsession, hdispatch]
    have hloaded : (s.setSession k { session with dispatch := s.load m }).sessions[k]? =
        some { session with dispatch := s.load m } := getElem?_set_of_eq_some hsession _
    have hacked := acked_step h hstep
    rcases s.load_cases m with ⟨slot, hload⟩ | hload
    . have ⟨s', hrun, hcount⟩ := hacked.count_of_sending hn hloaded hload
      exact ⟨[.load, .send, .ack], s', (Run.run_cons_of_step _ hstep).trans hrun, hcount⟩
    . have ⟨s', hack, hcount⟩ := hacked.count_of_acking hn hloaded hload
      exact ⟨[.load, .ack], s',
        (Run.run_cons_of_step _ hstep).trans (Run.run_singleton_of_step hack), hcount⟩

/--
Replies are not crossed: a response is decoded from a delivery with the correlation id of the call,
no two calls take one delivery, and in exclusive-queue mode each is acked once.
-/
theorem replies_of_run {as : List (Action Id Body)}
    (hrun : Run.run (step cfg) (init : State Id Body Resp) as = some s)
    : (∀ (j n : Nat) p resp, s.calls[j]? = some p → p.result = some (.response n resp) →
          ∃ d, s.deliveries[n]? = some d ∧ p.cid = some d.correlationId ∧
            cfg.decode d.body = some resp) ∧
        (∀ (i j n : Nat) p q, s.calls[i]? = some p → s.calls[j]? = some q → p.taken = some n →
          q.taken = some n → i = j) ∧
        (∀ (j : Nat) cid, s.pending cid = some j ↔
          ∃ p, s.calls[j]? = some p ∧ p.registeredId = some cid) ∧
        (∀ (k n slot : Nat) session, s.sessions[k]? = some session →
          session.dispatch = .sending n slot → (s.step cfg (.dispatch k .send)).isSome = true) ∧
        (cfg.useExclusiveQueue = true → ∀ (n : Nat) d, s.deliveries[n]? = some d →
          d.acknowledger = true →
            s.acks.count n ≤ 1 ∧
            ((∀ session ∈ s.sessions, session.dispatch.hand ≠ some n) → s.acks.count n = 1) ∧
            ∀ (k : Nat) session, s.sessions[k]? = some session → session.dispatch.hand = some n →
              ∃ (ds : List DispatchAction) (s' : State Id Body Resp),
                Run.run (step cfg) s (ds.map (.dispatch k)) = some s' ∧ s'.acks.count n = 1) := by
  have ⟨hrouted, hacked⟩ := inv_of_run hrun
  refine ⟨?_, ?_, ?_, ?_, ?_⟩
  . intro j n p resp hcall hresult
    have ⟨p', d, hcall', hd, hcid⟩ := hrouted.taken hcall (taken_of_response hresult)
    have ⟨d', hd', hdecode⟩ := hrouted.response hcall hresult
    rw [hcall, some.injEq] at hcall'
    rw [hd, some.injEq] at hd'
    exact ⟨d, hd, hcall' ▸ hcid, hd' ▸ hdecode⟩
  . intro i j n p q hi hj hp hq
    have ⟨p', d, hi', hd, hcid⟩ := hrouted.taken hi hp
    have ⟨q', d', hj', hd', hcid'⟩ := hrouted.taken hj hq
    rw [hd, some.injEq] at hd'
    exact hrouted.distinct hi' hj' hcid (hd' ▸ hcid')
  . exact fun j cid => hrouted.pending
  . intro k n slot session hsession hdispatch
    exact send_isSome hsession hdispatch
  . intro hexclusive n d hd hacknowledger
    have hn : s.ackable cfg n = true := by
      unfold ackable
      rw [hexclusive, hd]
      exact hacknowledger
    have honce := hacked.once n hn
    refine ⟨by omega, ?_, ?_⟩
    . intro hno
      have hzero : s.hands n = 0 := by
        refine countP_eq_zero.mpr ?_
        intro session hmem hhas
        exact hno session hmem (of_decide_eq_true hhas)
      omega
    . intro k session hsession hhand
      exact hacked.count_of_hand hn hsession hhand

def crossedRun : List (Action Nat Nat) :=
  [.begin, .call 0 .lock, .call 0 .barrierOk, .call 0 (.openSession ⟨true, some 0, true, true⟩),
    .call 0 (.identify 7), .call 0 .register, .call 0 .publish, .begin, .call 1 .lock,
    .call 1 (.identify 8), .call 1 .register, .call 1 .publish, .deliver 0 ⟨8, 80, true⟩,
    .dispatch 0 .load, .dispatch 0 .send, .dispatch 0 .ack, .deliver 0 ⟨8, 81, true⟩,
    .dispatch 0 .load, .dispatch 0 .send, .dispatch 0 .ack, .deliver 0 ⟨7, 70, true⟩,
    .dispatch 0 .load, .dispatch 0 .send, .dispatch 0 .ack, .call 0 .reply, .call 1 .reply,
    .call 0 .unregister, .call 1 .unregister]

theorem replies_of_run_crossed
    : ∃ s : State Nat Nat Nat, Run.run (step ⟨true, 0, some⟩) init crossedRun = some s ∧
        s.calls = [.returned (some 7) (.response 2 70), .returned (some 8) (.response 0 80)] ∧
        (∃ d, s.deliveries[2]? = some d ∧ some 7 = some d.correlationId ∧ some d.body = some 70) ∧
        s.acks.count 1 ≤ 1 := by
  have ⟨s, hrun, hs⟩ := map_eq_some_iff.mp
    (by decide : (Run.run (step ⟨true, 0, some⟩) (init : State Nat Nat Nat) crossedRun).map
      (fun s => (s.calls, s.deliveries[1]?)) =
        some ([.returned (some 7) (.response 2 70), .returned (some 8) (.response 0 80)],
          some ⟨8, 81, true⟩))
  simp only [Prod.mk.injEq] at hs
  have hreplies := replies_of_run hrun
  have hcall : s.calls[0]? = some (.returned (some 7) (.response 2 70)) := by rw [hs.1]; rfl
  exact ⟨s, hrun, hs.1, hreplies.1 0 2 _ 70 hcall rfl, (hreplies.2.2.2.2 rfl 1 _ hs.2 rfl).1⟩

end State
end Rpc
