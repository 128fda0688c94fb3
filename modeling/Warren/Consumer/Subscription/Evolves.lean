import Warren.Base.Run
import Warren.Consumer.Subscription.Environment
import Warren.Consumer.Subscription.Moves

/-!
How the channels and subscriptions of the consumer evolve: none is taken away, and no end of one is
taken back.
-/

namespace Subscription

open Function
open Nat

def OpenPhase.sub : OpenPhase → Option Nat
  | .publishing i => some i
  | _ => none

def LoopPhase.sub : LoopPhase → Option Nat
  | .opening p => p.sub
  | .reopening p => p.sub
  | _ => none

def HookPhase.sub : HookPhase → Option Nat
  | .opening p => p.sub
  | .sending i => some i
  | _ => none

def MuPhase.sub : MuPhase → Option Nat
  | .subscribed i => some i
  | .swapped i _ => some i
  | .rollingBack i => some i
  | _ => none

def OpenPhase.chan : OpenPhase → Option Nat
  | .subscribing c => some c
  | _ => none

def LoopPhase.chan : LoopPhase → Option Nat
  | .opening p => p.chan
  | .reopening p => p.chan
  | _ => none

def HookPhase.chan : HookPhase → Option Nat
  | .opening p => p.chan
  | _ => none

namespace State

variable {prefetch : Nat}

-- a call of `openDeliveryCh` or of `Resume` has made the subscription and not yet passed it on
def InHand (s : State prefetch) (i : Nat) : Prop :=
  s.mu.sub = some i ∨ s.loop.sub = some i ∨ ∃ b run, s.hooks b = some run ∧ run.phase.sub = some i

def Refers (s : State prefetch) (i : Nat) : Prop :=
  s.cur = some i ∨ i ∈ s.resubCh.buf ∨ s.InHand i

def RefersChan (s : State prefetch) (c : Nat) : Prop :=
  s.live = some c ∨ s.loop.chan = some c ∨
  ∃ b run, s.hooks b = some run ∧ run.phase.chan = some c

structure Evolves (s s' : State prefetch) : Prop where
  chans : ∀ {c ch}, s.chans c = some ch →
    ∃ ch', s'.chans c = some ch' ∧ ch'.socket = ch.socket ∧ (ch.died = true → ch'.died = true)
  subs : ∀ {i sub}, s.subs i = some sub →
    ∃ sub', s'.subs i = some sub' ∧ sub'.chan = sub.chan ∧
      (sub.cancelled = true → sub'.cancelled = true)
  chans_of : ∀ {c ch'}, s'.chans c = some ch' →
    (∃ ch, s.chans c = some ch) ∨
    (c = s.nextChan ∧ s'.nextChan = s.nextChan + 1 ∧ s.up = some ch'.socket)
  subs_of : ∀ {i sub'}, s'.subs i = some sub' →
    (∃ sub, s.subs i = some sub) ∨
    (i = s.nextSub ∧ s'.nextSub = s.nextSub + 1 ∧ s.chanOpen sub'.chan = true)
  next_chan : s.nextChan ≤ s'.nextChan
  next_sub : s.nextSub ≤ s'.nextSub
  next_socket : s.nextSocket ≤ s'.nextSocket
  up : s'.up = s.up ∨ s'.up = none ∨
    (s'.up = some s.nextSocket ∧ s'.nextSocket = s.nextSocket + 1)

structure Tables (prefetch : Nat) where
  chans : Nat → Option Channel
  subs : Nat → Option (Sub prefetch)
  nextChan : Nat
  nextSub : Nat
  nextSocket : Nat
  up : Option Nat

def tables (s : State prefetch) : Tables prefetch :=
  ⟨s.chans, s.subs, s.nextChan, s.nextSub, s.nextSocket, s.up⟩

variable {s s' t : State prefetch}

theorem Evolves.congr (h : s.Evolves t) (hsame : s'.tables = t.tables) : s.Evolves s' := by
  have hchans : s'.chans = t.chans := congrArg Tables.chans hsame
  have hsubs : s'.subs = t.subs := congrArg Tables.subs hsame
  have hnextChan : s'.nextChan = t.nextChan := congrArg Tables.nextChan hsame
  have hnextSub : s'.nextSub = t.nextSub := congrArg Tables.nextSub hsame
  have hnextSocket : s'.nextSocket = t.nextSocket := congrArg Tables.nextSocket hsame
  have hup : s'.up = t.up := congrArg Tables.up hsame
  constructor
  . rw [hchans]
    exact h.chans
  . rw [hsubs]
    exact h.subs
  . rw [hchans, hnextChan]
    exact h.chans_of
  . rw [hsubs, hnextSub]
    exact h.subs_of
  . rw [hnextChan]
    exact h.next_chan
  . rw [hnextSub]
    exact h.next_sub
  . rw [hnextSocket]
    exact h.next_socket
  . rw [hup, hnextSocket]
    exact h.up

theorem Evolves.refl (s : State prefetch) : s.Evolves s where
  chans := fun hc => ⟨_, hc, rfl, id⟩
  subs := fun hi => ⟨_, hi, rfl, id⟩
  chans_of := fun hc => .inl ⟨_, hc⟩
  subs_of := fun hi => .inl ⟨_, hi⟩
  next_chan := le_refl _
  next_sub := le_refl _
  next_socket := le_refl _
  up := .inl rfl

theorem evolves_of_same (hsame : s'.tables = s.tables) : s.Evolves s' :=
  (Evolves.refl s).congr hsame

theorem tables_openGoto (s : State prefetch) (who : Caller) (p : OpenPhase)
    : (s.openGoto who p).tables = s.tables := by
  cases who with
  | loop => rfl
  | hook b => rfl

theorem tables_openFail (s : State prefetch) (who : Caller) : (s.openFail who).tables = s.tables := by
  cases who with
  | loop => rfl
  | hook b => rfl

theorem tables_openReturn (s : State prefetch) (who : Caller) (i : Nat)
    : (s.openReturn who i).tables = s.tables := by
  cases who with
  | loop => rfl
  | hook b => rfl

theorem sendFrame_eq (s : State prefetch) (c d : Nat) (v : Dispatch.Verdict)
    : s.sendFrame c d v = { s with frames := (s.sendFrame c d v).frames } := by
  unfold sendFrame
  split
  . rfl
  . rfl

theorem sendVerdict_eq (s : State prefetch) (hd : Handler) (v : Option Dispatch.Verdict)
    : s.sendVerdict hd v = { s with frames := (s.sendVerdict hd v).frames } := by
  cases v with
  | none => rfl
  | some v => exact sendFrame_eq s hd.chan hd.d v

theorem useCounter_eq (s : State prefetch) (hd : Handler) (handling : Dispatch.Handling)
    (cs : CounterB.RedeliveryCounter)
    : s.useCounter hd handling cs = { s with
        counters := (s.useCounter hd handling cs).counters
        uses := (s.useCounter hd handling cs).uses } := by
  unfold useCounter
  split
  . rfl
  . split
    . rfl
    . rfl

variable {i c : Nat} {cfg : Config} {sub : Sub prefetch} {ch : Channel}

theorem handlerMove_eq {hd : Handler} {a : HandlerAction} (hmove : s.HandlerMove cfg hd a s')
    : s' = { s with
        counters := s'.counters, handlers := s'.handlers, frames := s'.frames, uses := s'.uses } := by
  cases hmove with
  | load => rfl
  | verdict v =>
    rw [sendFrame_eq]
    rfl
  | finish handling cs cs' v =>
    rw [sendVerdict_eq, useCounter_eq]

theorem evolves_of_setSub {sub' : Sub prefetch} (hsub : s.subs i = some sub)
    (hchan : sub'.chan = sub.chan) (hcancelled : sub'.cancelled = sub.cancelled)
    : s.Evolves (s.setSub i sub') := by
  refine { Evolves.refl s with subs := ?_, subs_of := ?_ }
  . intro j subj hj
    by_cases heq : j = i
    . subst heq
      rw [hsub] at hj
      cases hj
      exact ⟨sub', update_self j _ _, hchan, fun h => hcancelled.trans h⟩
    . exact ⟨subj, (update_of_ne heq _ _).trans hj, rfl, id⟩
  . intro j subj hj
    left
    by_cases heq : j = i
    . exact ⟨sub, heq ▸ hsub⟩
    . exact ⟨subj, (update_of_ne heq _ _).symm.trans hj⟩

theorem evolves_of_setChan {ch' : Channel} (hch : s.chans c = some ch)
    (hsocket : ch'.socket = ch.socket) (hdied : ch.died = true → ch'.died = true)
    : s.Evolves (s.setChan c ch') := by
  refine { Evolves.refl s with chans := ?_, chans_of := ?_ }
  . intro c' chc hc
    by_cases heq : c' = c
    . subst heq
      rw [hch] at hc
      cases hc
      exact ⟨ch', update_self c' _ _, hsocket, hdied⟩
    . exact ⟨chc, (update_of_ne heq _ _).trans hc, rfl, id⟩
  . intro c' chc hc
    left
    by_cases heq : c' = c
    . exact ⟨ch, heq ▸ hch⟩
    . exact ⟨chc, (update_of_ne heq _ _).symm.trans hc⟩

theorem evolves_of_mapSubs {f : Sub prefetch → Sub prefetch}
    (hchan : ∀ sub, (f sub).chan = sub.chan)
    (hcancelled : ∀ sub, sub.cancelled = true → (f sub).cancelled = true)
    : s.Evolves { s with subs := fun i => (s.subs i).map f } := by
  refine { Evolves.refl s with subs := ?_, subs_of := ?_ }
  . intro i sub hsub
    refine ⟨f sub, ?_, hchan sub, hcancelled sub⟩
    dsimp only
    rw [hsub, Option.map_some]
  . intro i sub' hsub'
    have ⟨sub, hsub, _⟩ := Option.map_eq_some_iff.mp hsub'
    exact .inl ⟨sub, hsub⟩

theorem evolves_of_cancelOn (s : State prefetch) (c : Nat) : s.Evolves (s.cancelOn c) := by
  apply evolves_of_mapSubs
  . intro sub
    split
    . rfl
    . rfl
  . intro sub h
    split
    . rfl
    . exact h

theorem evolves_of_endStreams (s : State prefetch) (c : Nat) : s.Evolves (s.endStreams c) := by
  apply evolves_of_mapSubs
  . intro sub
    split
    . rfl
    . rfl
  . intro sub h
    split
    all_goals exact h

theorem evolves_of_endConsumes (s : State prefetch) (c : Nat) : s.Evolves (s.endConsumes c) := by
  apply evolves_of_mapSubs
  . intro sub
    split
    . rfl
    . rfl
  . intro sub h
    split
    . rfl
    . exact h

theorem Evolves.trans (h : s.Evolves t) (h' : t.Evolves s') (hchan : s'.nextChan = s.nextChan)
    (hsub : s'.nextSub = s.nextSub) (hsocket : t.nextSocket = s.nextSocket) (hup : t.up = s.up)
    : s.Evolves s' where
  chans := by
    intro c ch hc
    have ⟨ch₁, hc₁, hsocket₁, hdied₁⟩ := h.chans hc
    have ⟨ch₂, hc₂, hsocket₂, hdied₂⟩ := h'.chans hc₁
    exact ⟨ch₂, hc₂, hsocket₂.trans hsocket₁, hdied₂ ∘ hdied₁⟩
  subs := by
    intro i sub hi
    have ⟨sub₁, hi₁, hchan₁, hcancelled₁⟩ := h.subs hi
    have ⟨sub₂, hi₂, hchan₂, hcancelled₂⟩ := h'.subs hi₁
    exact ⟨sub₂, hi₂, hchan₂.trans hchan₁, hcancelled₂ ∘ hcancelled₁⟩
  chans_of := by
    intro c ch' hc
    left
    have hle := h.next_chan
    have hle' := h'.next_chan
    cases h'.chans_of hc with
    | inr hnew => omega
    | inl hold =>
      have ⟨ch₁, hc₁⟩ := hold
      cases h.chans_of hc₁ with
      | inl hold => exact hold
      | inr hnew => omega
  subs_of := by
    intro i sub' hi
    left
    have hle := h.next_sub
    have hle' := h'.next_sub
    cases h'.subs_of hi with
    | inr hnew => omega
    | inl hold =>
      have ⟨sub₁, hi₁⟩ := hold
      cases h.subs_of hi₁ with
      | inl hold => exact hold
      | inr hnew => omega
  next_chan := le_trans h.next_chan h'.next_chan
  next_sub := le_trans h.next_sub h'.next_sub
  next_socket := le_trans h.next_socket h'.next_socket
  up := by
    rw [← hup, ← hsocket]
    exact h'.up

structure Wf (s : State prefetch) : Prop where
  socket_lt : ∀ {c ch}, s.chans c = some ch → ch.socket < s.nextSocket
  up_lt : ∀ {n}, s.up = some n → n < s.nextSocket
  chan_lt : ∀ {c ch}, s.chans c = some ch → c < s.nextChan
  sub_lt : ∀ {i sub}, s.subs i = some sub → i < s.nextSub
  sub_chan : ∀ {i sub}, s.subs i = some sub → ∃ ch, s.chans sub.chan = some ch
  refers : ∀ {i}, s.Refers i → ∃ sub, s.subs i = some sub
  refers_chan : ∀ {c}, s.RefersChan c → ∃ ch, s.chans c = some ch
  hook_lt : ∀ {b run}, s.hooks b = some run → b < s.nextBarrier
  reason_closed : s.cancelReasonCh.closed = false

theorem Wf.ne_nextSub (h : s.Wf) (hsub : s.subs i = some sub) : i ≠ s.nextSub :=
  Nat.ne_of_lt (h.sub_lt hsub)

theorem Wf.ne_nextChan (h : s.Wf) (hch : s.chans c = some ch) : c ≠ s.nextChan :=
  Nat.ne_of_lt (h.chan_lt hch)

theorem chanOpen_iff
    : s.chanOpen c = true ↔ ∃ ch, s.chans c = some ch ∧ ch.died = false ∧ s.up = some ch.socket := by
  unfold chanOpen
  split
  . next hch => simp [hch]
  . next ch hch => simp [hch]

theorem evolves_of_newChan (h : s.Wf) {socket : Nat} (hup : s.up = some socket)
    : s.Evolves (s.newChan socket) where
  chans := fun hc => ⟨_, (update_of_ne (h.ne_nextChan hc) _ _).trans hc, rfl, id⟩
  subs := fun hi => ⟨_, hi, rfl, id⟩
  chans_of := by
    intro c ch' hc
    by_cases heq : c = s.nextChan
    . subst heq
      have hnew : some _ = some ch' := (update_self s.nextChan _ _).symm.trans hc
      cases hnew
      exact .inr ⟨rfl, rfl, hup⟩
    . exact .inl ⟨ch', (update_of_ne heq _ _).symm.trans hc⟩
  subs_of := fun hi => .inl ⟨_, hi⟩
  next_chan := le_succ _
  next_sub := le_refl _
  next_socket := le_refl _
  up := .inl rfl

theorem evolves_of_newSub (h : s.Wf) (hopen : s.chanOpen c = true) (started : Bool)
    : s.Evolves (s.newSub c started) where
  chans := fun hc => ⟨_, hc, rfl, id⟩
  subs := fun hi => ⟨_, (update_of_ne (h.ne_nextSub hi) _ _).trans hi, rfl, id⟩
  chans_of := fun hc => .inl ⟨_, hc⟩
  subs_of := by
    intro i sub' hi
    by_cases heq : i = s.nextSub
    . subst heq
      have hnew : some _ = some sub' := (update_self s.nextSub _ _).symm.trans hi
      cases hnew
      exact .inr ⟨rfl, rfl, hopen⟩
    . exact .inl ⟨sub', (update_of_ne heq _ _).symm.trans hi⟩
  next_chan := le_refl _
  next_sub := le_succ _
  next_socket := le_refl _
  up := .inl rfl

theorem evolves_of_closeChan (s : State prefetch) (c : Nat) : s.Evolves (s.closeChan c) := by
  cases hch : s.chans c with
  | none =>
    have heq : s.closeChan c = s := by
      unfold closeChan
      rw [hch, Option.map_none, ← hch, update_eq_self]
    rw [heq]
    exact Evolves.refl s
  | some ch =>
    have h : s.Evolves (s.setChan c { ch with died := true }) :=
      evolves_of_setChan hch rfl (fun _ => rfl)
    unfold closeChan
    rw [hch]
    exact h

theorem evolves_of_up {up : Option Nat} {nextSocket : Nat} (hle : s.nextSocket ≤ nextSocket)
    (hup : up = none ∨ (up = some s.nextSocket ∧ nextSocket = s.nextSocket + 1))
    : s.Evolves { s with up, nextSocket } :=
  { Evolves.refl s with next_socket := hle, up := .inr hup }

theorem evolves_of_openMove (h : s.Wf) {who : Caller} {a : OpenAction}
    (hmove : s.OpenMove who a s') : s.Evolves s' := by
  cases hmove with
  | rotate => exact evolves_of_same (tables_openGoto s.newCounter who .reading)
  | notConnected | channelErr => exact evolves_of_same (tables_openFail s who)
  | readRaw socket => exact evolves_of_same (tables_openGoto s who _)
  | channelOk socket _ hup => exact (evolves_of_newChan h hup).congr (tables_openGoto _ who _)
  | consumeOk c _ hopen => exact (evolves_of_newSub h hopen false).congr (tables_openGoto _ who _)
  | consumeErr c => exact (evolves_of_closeChan s c).congr (tables_openFail _ who)
  | publish i sub _ hsub =>
    have hset : s.Evolves (s.setSub i { sub with started := true }) :=
      evolves_of_setSub hsub rfl rfl
    exact hset.congr (tables_openReturn _ who i)

theorem evolves_of_loopMove {a : LoopAction} (hmove : s.LoopMove cfg a s') : s.Evolves s' := by
  cases hmove with
  | recv i sub d out _ _ hsub | drainErr i sub d out _ _ hsub =>
    have hset : s.Evolves (s.setSub i { sub with out }) := evolves_of_setSub hsub rfl rfl
    exact hset.congr rfl
  | cancelOk c => exact (evolves_of_cancelOn s c).congr rfl
  | drain i sub d out _ _ _ hsub =>
    have hset : s.Evolves (s.setSub i { sub with out }) := evolves_of_setSub hsub rfl rfl
    rw [sendFrame_eq]
    exact hset.congr rfl
  | _ => exact evolves_of_same rfl

theorem evolves_of_muMove (h : s.Wf) {a : MuAction} (hmove : s.MuMove a s') : s.Evolves s' := by
  cases hmove with
  | pauseOk c | rollbackOk i c => exact (evolves_of_cancelOn s c).congr rfl
  | resumeConsumeOk c _ _ hopen => exact (evolves_of_newSub h hopen true).congr rfl
  | _ => exact evolves_of_same rfl

theorem evolves_of_pumpPut {sub' : Sub prefetch} {ch' : Channel} {cancelReasonCh : Chan Unit 1}
    (hsub : s.subs i = some sub) (hch : s.chans sub.chan = some ch) (hchan : sub'.chan = sub.chan)
    (hcancelled : sub'.cancelled = sub.cancelled) (hsocket : ch'.socket = ch.socket)
    (hdied : ch'.died = ch.died) : s.Evolves (s.pumpPut i sub' ch' cancelReasonCh) := by
  have hset : s.Evolves (s.setSub i sub') := evolves_of_setSub hsub hchan hcancelled
  have hsetChan : (s.setSub i sub').Evolves ((s.setSub i sub').setChan sub'.chan ch') :=
    evolves_of_setChan (hchan ▸ hch) hsocket (fun h => hdied.trans h)
  exact (hset.trans hsetChan rfl rfl rfl rfl).congr rfl

theorem evolves_of_pumpMove {a : Pause.PumpAction} (hsub : s.subs i = some sub)
    (hch : s.chans sub.chan = some ch) (hmove : s.PumpMove i sub ch a s') : s.Evolves s' := by
  cases hmove with
  | _ => exact evolves_of_pumpPut hsub hch rfl rfl rfl rfl

theorem evolves_of_handlerMove {h : Handler} {a : HandlerAction} (hmove : s.HandlerMove cfg h a s')
    : s.Evolves s' := by
  rw [handlerMove_eq hmove]
  exact evolves_of_same rfl

theorem evolves_of_superMove {a : SuperAction} (hmove : s.SuperMove a s') : s.Evolves s' := by
  cases hmove with
  | dial =>
    have hup := evolves_of_up (s := s) (le_succ _) (.inr ⟨rfl, rfl⟩)
    exact hup.congr rfl
  | capClose | exit =>
    have hup : s.Evolves { s with up := none, nextSocket := s.nextSocket } :=
      evolves_of_up (le_refl _) (.inl rfl)
    exact hup.congr rfl
  | _ => exact evolves_of_same rfl

theorem evolves_of_envMove {a : EnvAction} (hmove : s.EnvMove a s') : s.Evolves s' := by
  cases hmove with
  | deliver i d sub hsub =>
    have hset : s.Evolves (s.setSub i { sub with queue := sub.queue ++ [d] }) :=
      evolves_of_setSub hsub rfl rfl
    exact hset.congr rfl
  | socketLost => exact evolves_of_up (le_refl _) (.inl rfl)
  | die c ch closeCh hch => exact evolves_of_setChan hch rfl (fun _ => rfl)
  | dieStreams c => exact evolves_of_endStreams s c
  | cancelByBroker c ch cancelCh hch =>
    have hset : s.Evolves (s.setChan c { ch with cancelCh }) := evolves_of_setChan hch rfl id
    exact hset.trans (evolves_of_endConsumes _ c) rfl rfl rfl rfl
  | endStream i sub hsub => exact evolves_of_setSub hsub rfl rfl
  | _ => exact evolves_of_same rfl

theorem evolves_of_hookMove {b : Nat} {a : HookAction} (hmove : s.HookMove b a s')
    : s.Evolves s' := by
  cases hmove with
  | _ => exact evolves_of_same rfl

end State
end Subscription
