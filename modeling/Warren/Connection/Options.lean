import Warren.Connection.Rotation

/-!
`validateConnOptions` (`connection.go`), and what a socket dials under options that it accepts. The
warnings are left out.
-/

namespace Options

open Rotation

inductive SASLMechanism where
  | plain
  | external
  deriving DecidableEq

structure TLSConfig where
  certificates : Nat
  getClientCertificate : Bool

structure ConnOptions extends Rotation.ConnOptions where
  frameMax : UInt32
  pubConns : Int
  conConns : Int
  channelPoolSize : Int
  channelMax : UInt16
  saslMechanism : SASLMechanism
  tlsConfig : Option TLSConfig

structure InvalidOptions where
  format : String
  args : List String

def frameMaxHardCeiling : UInt32 := 104857600

def channelPoolSizeMax : Int := 4096

-- what `url.Parse` finds, empty for an address that does not parse
variable (urlScheme : String → String)

def validateAddrsScheme : String → List String → Option InvalidOptions
  | _, [] => none
  | scheme, a :: addrs =>
    if urlScheme a = "" then
      validateAddrsScheme scheme addrs
    else if scheme = "" then
      validateAddrsScheme (urlScheme a) addrs
    else if urlScheme a ≠ scheme then
      some ⟨"WithAddrs entries must all use the same scheme; found both %q and %q",
        [scheme, urlScheme a]⟩
    else
      validateAddrsScheme scheme addrs

def isAmqps (addr : String) : Bool := "amqps://".toList.isPrefixOf addr.toList

def check (violated : Prop) [Decidable violated] (format : String) (args : List String)
    : Option InvalidOptions :=
  if violated then some ⟨format, args⟩ else none

-- `redactURI` is `redact.URI`
def validateExternal (redactURI : String → String) (opts : ConnOptions) : Option InvalidOptions :=
  match opts.tlsConfig with
  | none => some ⟨"SASLExternal requires WithTLSConfig", []⟩
  | some cfg =>
    (check (cfg.certificates = 0 ∧ cfg.getClientCertificate = false)
      ("SASLExternal requires a client certificate in TLSConfig "
        ++ "(Certificates or GetClientCertificate)") [])
    |>.or (opts.dialAddrs.findSome? (fun addr => check (¬isAmqps addr)
      "SASLExternal requires amqps:// scheme; got %q" [redactURI addr]))

def validateConnOptions (redactURI : String → String) (opts : ConnOptions)
    : Option InvalidOptions :=
  check (0 < opts.frameMax ∧ opts.frameMax < 4096)
    "WithFrameMax must be 0 or ≥ 4096 (AMQP spec minimum); got %d" [toString opts.frameMax]
  |>.or (check (opts.frameMax > frameMaxHardCeiling)
    "WithFrameMax must be ≤ %d (100 MiB); got %d"
    [toString frameMaxHardCeiling, toString opts.frameMax])
  |>.or (check (opts.pubConns ≤ 0)
    "WithPublisherConnections must be ≥ 1; got %d" [toString opts.pubConns])
  |>.or (check (opts.conConns ≤ 0)
    "WithConsumerConnections must be ≥ 1; got %d" [toString opts.conConns])
  |>.or (check (opts.channelPoolSize ≤ 0)
    "WithChannelPoolSize must be ≥ 1; got %d" [toString opts.channelPoolSize])
  |>.or (check (opts.channelPoolSize > channelPoolSizeMax)
    "WithChannelPoolSize must be ≤ %d; got %d"
    [toString channelPoolSizeMax, toString opts.channelPoolSize])
  |>.or (check (0 < opts.channelMax ∧ opts.channelPoolSize > opts.channelMax.toNat)
    "WithChannelPoolSize (%d) exceeds WithChannelMax (%d)"
    [toString opts.channelPoolSize, toString opts.channelMax])
  |>.or (validateAddrsScheme urlScheme "" opts.addrs)
  |>.or (if opts.saslMechanism = .external then validateExternal redactURI opts else none)

variable {urlScheme} {redactURI : String → String} {opts : ConnOptions}

theorem one_scheme {scheme : String} {addrs : List String}
    (h : validateAddrsScheme urlScheme scheme addrs = none)
    : ∃ common, (scheme = "" ∨ common = scheme) ∧
        ∀ addr ∈ addrs, urlScheme addr ≠ "" → urlScheme addr = common := by
  induction addrs generalizing scheme with
  | nil => exact ⟨scheme, .inr rfl, by simp⟩
  | cons a addrs ih =>
    unfold validateAddrsScheme at h
    split at h
    next hempty =>
      obtain ⟨common, hscheme, hcommon⟩ := ih h
      exact ⟨common, hscheme, List.forall_mem_cons.mpr ⟨absurd hempty, hcommon⟩⟩
    next hne =>
      split at h
      next hfirst =>
        obtain ⟨common, hscheme, hcommon⟩ := ih h
        have ha := (hscheme.resolve_left hne).symm
        exact ⟨common, .inl hfirst, List.forall_mem_cons.mpr ⟨fun _ => ha, hcommon⟩⟩
      next hlater =>
        split at h
        . contradiction
        next hsame =>
          obtain ⟨common, hscheme, hcommon⟩ := ih h
          have ha := (not_not.mp hsame).trans (hscheme.resolve_left hlater).symm
          exact ⟨common, hscheme, List.forall_mem_cons.mpr ⟨fun _ => ha, hcommon⟩⟩

theorem isAmqps_of_validateExternal (h : validateExternal redactURI opts = none)
    : ∀ addr ∈ opts.dialAddrs, isAmqps addr := by
  unfold validateExternal at h
  split at h
  . contradiction
  . intro addr haddr
    have hcheck := List.findSome?_eq_none_iff.mp (Option.or_eq_none_iff.mp h).2 addr haddr
    simpa [check] using hcheck

theorem mem_dialAddrs_of_results (mc : ManagedConn opts.toConnOptions) {k : Nat} {addr : String}
    (h : addr ∈ mc.results k) : addr ∈ opts.dialAddrs := by
  obtain ⟨i, hi⟩ := List.mem_iff_getElem?.mp h
  have hlt : i < k := by
    rw [← mc.length_results k]
    exact (List.getElem?_eq_some_iff.mp hi).1
  rw [mc.getElem?_results hlt] at hi
  exact mc.perm_dialOrder.mem_iff.mp (List.mem_of_getElem? hi)

/--
A socket dials addresses of one scheme, and none in plaintext where its certificate is to be shown.
-/
theorem dials_one_scheme (urlScheme redactURI : String → String) (opts : ConnOptions)
    (hvalid : validateConnOptions urlScheme redactURI opts = none)
    (mc : ManagedConn opts.toConnOptions) (k : Nat)
    : (∃ scheme, ∀ addr ∈ ManagedConn.results k mc, urlScheme addr ≠ "" → urlScheme addr = scheme)
      ∧ (opts.saslMechanism = .external → ∀ addr ∈ ManagedConn.results k mc, isAmqps addr) := by
  simp only [validateConnOptions, Option.or_eq_none_iff] at hvalid
  obtain ⟨⟨_, hscheme⟩, hexternal⟩ := hvalid
  constructor
  . by_cases haddrs : 0 < opts.addrs.length
    . obtain ⟨common, _, hcommon⟩ := one_scheme hscheme
      refine ⟨common, fun addr haddr => hcommon addr ?_⟩
      simpa [ConnOptions.dialAddrs, haddrs] using mem_dialAddrs_of_results mc haddr
    . refine ⟨urlScheme opts.addr, fun addr haddr _ => ?_⟩
      have hmem := mem_dialAddrs_of_results mc haddr
      simp only [ConnOptions.dialAddrs, haddrs, if_false, List.mem_singleton] at hmem
      rw [hmem]
  . intro hsasl addr haddr
    rw [if_pos hsasl] at hexternal
    exact isAmqps_of_validateExternal hexternal addr (mem_dialAddrs_of_results mc haddr)

def externalOptions : ConnOptions where
  addr := ""
  addrs := ["amqps://a", "amqps://b"]
  frameMax := 0
  pubConns := 2
  conConns := 2
  channelPoolSize := 16
  channelMax := 2047
  saslMechanism := .external
  tlsConfig := some ⟨1, false⟩

theorem dials_one_scheme_external
    : validateConnOptions (fun _ => "amqps") id externalOptions = none
      ∧ ∀ addr ∈ ManagedConn.results 5 (.fresh externalOptions.toConnOptions (fun i => Fin.last i)),
          isAmqps addr := by
  have hvalid : validateConnOptions (fun _ => "amqps") id externalOptions = none := by decide
  exact ⟨hvalid, (dials_one_scheme _ _ externalOptions hvalid (.fresh _ _) 5).2 rfl⟩

end Options
