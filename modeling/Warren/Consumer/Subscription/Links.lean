import Warren.Consumer.Subscription.Wf

namespace Subscription

def OpenPhase.socket : OpenPhase → Option Nat
  | .opening socket => some socket
  | _ => none

def LoopPhase.socket : LoopPhase → Option Nat
  | .opening p => p.socket
  | .reopening p => p.socket
  | _ => none

namespace State

variable {prefetch : Nat}

structure Links (s : State prefetch) : Prop where
  raw_lt : ∀ {n}, s.raw = some n → n < s.nextSocket
  opening_lt : ∀ {n}, s.loop.socket = some n → n < s.nextSocket
  connecting : s.reconnecting = false → s.super = .watching ∨ s.super = .exited
  live_sub : ∀ {c}, s.live = some c → ∃ i sub, s.subs i = some sub ∧ sub.chan = c
  mu_sub : ∀ {i}, s.mu.sub = some i → ∃ sub, s.subs i = some sub ∧ s.live = some sub.chan

variable {s s' t : State prefetch}

theorem links_init (prefetch : Nat) (bootDegraded : Bool) : (init prefetch bootDegraded).Links where
  raw_lt := by
    intro n h
    cases bootDegraded
    . cases h
      exact Nat.zero_lt_one
    . contradiction
  opening_lt := by
    intro n h
    contradiction
  connecting := by
    intro h
    cases bootDegraded
    . exact .inl rfl
    . contradiction
  live_sub := by
    intro c h
    contradiction
  mu_sub := by
    intro i h
    contradiction

structure Link where
  raw : Option Nat
  reconnecting : Bool
  super : SuperPhase
  live : Option Nat

def link (s : State prefetch) : Link := ⟨s.raw, s.reconnecting, s.super, s.live⟩

theorem Links.live_sub_of_evolves (h : s.Links) (he : s.Evolves s') {c : Nat}
    (hlive : s.live = some c) : ∃ i sub, s'.subs i = some sub ∧ sub.chan = c := by
  have ⟨i, sub, hsub, hchan⟩ := h.live_sub hlive
  have ⟨sub', hsub', hchan', _⟩ := he.subs hsub
  exact ⟨i, sub', hsub', hchan'.trans hchan⟩

theorem Links.frame (h : s.Links) (he : s.Evolves s') (hlink : s'.link = s.link)
    (hloop : ∀ {n}, s'.loop.socket = some n → s.loop.socket = some n ∨ s.raw = some n)
    (hmu : ∀ {i}, s'.mu.sub = some i → s.mu.sub = some i) : s'.Links := by
  have hraw : s'.raw = s.raw := congrArg Link.raw hlink
  have hreconnecting : s'.reconnecting = s.reconnecting := congrArg Link.reconnecting hlink
  have hsuper : s'.super = s.super := congrArg Link.super hlink
  have hlive : s'.live = s.live := congrArg Link.live hlink
  constructor
  . intro n hn
    exact Nat.lt_of_lt_of_le (h.raw_lt (hraw ▸ hn)) he.next_socket
  . intro n hn
    apply Nat.lt_of_lt_of_le _ he.next_socket
    cases hloop hn with
    | inl hn => exact h.opening_lt hn
    | inr hn => exact h.raw_lt hn
  . rw [hreconnecting, hsuper]
    exact h.connecting
  . intro c hc
    exact h.live_sub_of_evolves he (hlive ▸ hc)
  . intro i hi
    have ⟨sub, hsub, hchan⟩ := h.mu_sub (hmu hi)
    have ⟨sub', hsub', hchan', _⟩ := he.subs hsub
    exact ⟨sub', hsub', by rw [hlive, hchan, hchan']⟩

theorem socket_openGoto {who : Caller} {p : OpenPhase} {n : Nat}
    (h : (s.openGoto who p).loop.socket = some n) : s.loop.socket = some n ∨ p.socket = some n := by
  cases who with
  | hook b => exact .inl h
  | loop =>
    right
    cases loop_openGoto_loop s p with
    | _ hloop => rwa [hloop] at h

theorem socket_openFail {who : Caller} {n : Nat} (h : (s.openFail who).loop.socket = some n)
    : s.loop.socket = some n := by
  cases who with
  | hook b => exact h
  | loop =>
    cases loop_openFail_loop s with
    | _ hloop => rw [hloop] at h; contradiction

theorem links_of_openMove (hwf : s.Wf) (h : s.Links) {who : Caller} {a : OpenAction}
    (hmove : s.OpenMove who a s') : s'.Links := by
  have he := evolves_of_openMove hwf hmove
  have hgoto : ∀ {t : State prefetch} {p n}, p.socket = none → t.loop = s.loop →
      (t.openGoto who p).loop.socket = some n → s.loop.socket = some n ∨ s.raw = some n := by
    intro t p n hp hloop hn
    cases socket_openGoto hn with
    | inl hn => exact .inl (hloop ▸ hn)
    | inr hn =>
      rw [hp] at hn
      contradiction
  have hfail : ∀ {t : State prefetch} {n}, t.loop = s.loop →
      (t.openFail who).loop.socket = some n → s.loop.socket = some n ∨ s.raw = some n :=
    fun hloop hn => .inl (hloop ▸ socket_openFail hn)
  cases hmove with
  | notConnected | channelErr | consumeErr =>
    cases who with | _ => exact h.frame he rfl (hfail rfl) id
  | readRaw socket _ hraw =>
    have hread : ∀ {n}, (s.openGoto who (.opening socket)).loop.socket = some n →
        s.loop.socket = some n ∨ s.raw = some n :=
      fun hn => (socket_openGoto hn).imp id (hraw.trans ·)
    cases who with | _ => exact h.frame he rfl hread id
  | publish i sub _ hsub hmu =>
    have hlive : ∀ {c}, some sub.chan = some c → ∃ j subj,
        Function.update s.subs i (some { sub with started := true }) j = some subj ∧
        subj.chan = c :=
      fun hc => ⟨i, _, Function.update_self i _ _, Option.some.inj hc⟩
    have hfree : ∀ {j}, s.mu.sub ≠ some j := by
      intro j hj
      rw [hmu] at hj
      contradiction
    cases who with
    | hook b => exact ⟨h.raw_lt, h.opening_lt, h.connecting, hlive, fun hj => absurd hj hfree⟩
    | loop =>
      exact ⟨h.raw_lt, fun hn => by contradiction, h.connecting, hlive, fun hj => absurd hj hfree⟩
  | _ => cases who with | _ => exact h.frame he rfl (hgoto rfl rfl) id

theorem links_of_loopMove (h : s.Links) {cfg : Config} {a : LoopAction} (hmove : s.LoopMove cfg a s')
    : s'.Links := by
  have he := evolves_of_loopMove hmove
  cases hmove with
  | drain =>
    rw [sendFrame_eq] at he ⊢
    exact h.frame he rfl (fun hn => .inl hn) id
  | _ => exact h.frame he rfl (fun hn => by contradiction) id

theorem links_of_muMove (hwf : s.Wf) (h : s.Links) {a : MuAction} (hmove : s.MuMove a s')
    : s'.Links := by
  have he := evolves_of_muMove hwf hmove
  cases hmove with
  | resumeConsumeOk c _ hlive =>
    refine ⟨h.raw_lt, h.opening_lt, h.connecting, h.live_sub_of_evolves he, ?_⟩
    intro i hi
    rw [← Option.some.inj hi]
    exact ⟨_, Function.update_self s.nextSub _ _, hlive⟩
  | resumeSwap i hmu | resumeRollback i prevCounter hmu => exact h.frame he rfl .inl (hmu ▸ id)
  | _ => exact h.frame he rfl .inl (fun hi => by contradiction)

theorem Links.of_super (h : s.Links) (he : s.Evolves s')
    (hraw : ∀ {n}, s'.raw = some n → n < s'.nextSocket) (hloop : s'.loop = s.loop)
    (hconnecting : s'.reconnecting = false → s'.super = .watching ∨ s'.super = .exited)
    (hlive : s'.live = s.live) (hmu : s'.mu = s.mu) (hsubs : s'.subs = s.subs) : s'.Links where
  raw_lt := hraw
  opening_lt := fun hn => Nat.lt_of_lt_of_le (h.opening_lt (hloop ▸ hn)) he.next_socket
  connecting := hconnecting
  live_sub := fun hc => h.live_sub_of_evolves he (hlive ▸ hc)
  mu_sub := by
    rw [hmu, hsubs, hlive]
    exact h.mu_sub

theorem links_of_superMove (h : s.Links) {a : SuperAction} (hmove : s.SuperMove a s')
    : s'.Links := by
  have he := evolves_of_superMove hmove
  -- while a socket is being replaced `isReconnecting` is set
  have hset : s.super ≠ .watching → s.super ≠ .exited → s.reconnecting ≠ false := by
    intro hwatching hexited hrec
    cases h.connecting hrec with
    | inl hsuper => exact hwatching hsuper
    | inr hsuper => exact hexited hsuper
  cases hmove with
  | reconnect => exact h.of_super he h.raw_lt rfl (fun hrec => by contradiction) rfl rfl rfl
  | dial hsuper =>
    refine h.of_super he ?_ rfl (fun hrec => absurd hrec (hset ?_ ?_)) rfl rfl rfl
    . intro n hn
      rw [← Option.some.inj hn]
      exact Nat.lt_succ_self _
    all_goals simp [hsuper]
  | runBarrier hsuper | cap b hsuper | capClose b hsuper =>
    exact h.of_super he h.raw_lt rfl
      (fun hrec => absurd hrec (hset (by simp [hsuper]) (by simp [hsuper]))) rfl rfl rfl
  | capRaw b hsuper =>
    exact h.of_super he (fun hn => by contradiction) rfl
      (fun hrec => absurd hrec (hset (by simp [hsuper]) (by simp [hsuper]))) rfl rfl rfl
  | done | shutdown => exact h.of_super he h.raw_lt rfl (fun _ => .inl rfl) rfl rfl rfl
  | _ => exact h.of_super he h.raw_lt rfl (fun _ => .inr rfl) rfl rfl rfl

theorem links_step {cfg : Config} {a : Action} (hwf : s.Wf) (h : s.Links)
    (hstep : s.step cfg a = some s') : s'.Links := by
  cases a with
  | openDeliveryCh who a => exact links_of_openMove hwf h (openStep_move hstep)
  | loop a => exact links_of_loopMove h (loopStep_move hstep)
  | hook b a =>
    have hmove := hookStep_move hstep
    have he := evolves_of_hookMove hmove
    cases hmove with
    | _ => exact h.frame he rfl .inl id
  | mu a => exact links_of_muMove hwf h (muStep_move hstep)
  | pump i a =>
    have ⟨sub, ch, hsub, hch, _, hmove⟩ := pumpStep_move hstep
    have he := evolves_of_pumpMove hsub hch hmove
    cases hmove with
    | _ => exact h.frame he rfl .inl id
  | handler hd a =>
    have hmove := (handlerStep_move hstep).2
    have he := evolves_of_handlerMove hmove
    rw [handlerMove_eq hmove] at he ⊢
    exact h.frame he rfl .inl id
  | super a => exact links_of_superMove h (superStep_move hstep)
  | env a =>
    have hmove := envStep_move hstep
    have he := evolves_of_envMove hmove
    cases hmove with
    | _ => exact h.frame he rfl .inl id

end State
end Subscription
