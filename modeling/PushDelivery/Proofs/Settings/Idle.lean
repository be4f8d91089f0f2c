import PushDelivery.Proofs.Dispatch.Closing
import PushDelivery.Proofs.Dispatch.Delivering
import PushDelivery.Proofs.Settings.Loading
import PushDelivery.Settings

/-!
# What settings deliver

Over the idle registry of its settings a dispatcher accepts every endpoint of a type that is served
and rejects all others, as long as the limit of the settings is within the permits that exist.
Loading checks only that the limit is not zero: every other limit is accepted, also those under
which no fan-out can start and nothing is ever reported.
-/

namespace PushDelivery

namespace TransportSettings

variable (s : TransportSettings) (provider : Provider) (notification : Notification)
  (endpoints : List Endpoint) (elapsed : Binary64)

/-- A dispatch over the idle registry of some settings. -/
def idleJob : Job where
  provider
  notification
  endpoints
  transport := s.idleRegistry.route provider.providerType
  elapsed

/-- What the idle registry should make of an endpoint. -/
def idleResult (e : Endpoint) : DeliveryResult :=
  if provider.providerType ∈ s.providerTypes then { provider, destination := e }
  else Transport.rejection provider e

variable {s provider}

theorem transport_idleJob_of_mem (h : provider.providerType ∈ s.providerTypes) :
    (s.idleJob provider notification endpoints elapsed).transport =
      .ofLimit .idle s.maxInFlight := by
  rw [idleJob, idleRegistry, Registry.route_uniform, if_pos h]

theorem transport_idleJob_of_notMem (h : provider.providerType ∉ s.providerTypes) :
    (s.idleJob provider notification endpoints elapsed).transport = .rejecting := by
  rw [idleJob, idleRegistry, Registry.route_uniform, if_neg h]

variable (s provider)

theorem answer_idleJob (number : Nat) (e : Endpoint) :
    (s.idleJob provider notification endpoints elapsed).answer number e =
      s.idleResult provider e := by
  by_cases h : provider.providerType ∈ s.providerTypes
  · rw [Job.answer_of_fanOut (transport_idleJob_of_mem _ _ _ h), idleResult, if_pos h]
    rfl
  · rw [Job.answer_of_sequential (transport_idleJob_of_notMem _ _ _ h), idleResult, if_neg h]
    rfl

theorem error_idleResult_ne (e : Endpoint) (detail : String) :
    (s.idleResult provider e).error ≠ some (.endpointKeyStale detail) := by
  unfold idleResult
  split <;> simp [Transport.rejection]

variable {σ : Type} [SubscriptionStore σ] (l : Ledger σ)

theorem delivers_idleJob
    (h : provider.providerType ∉ s.providerTypes ∨ s.maxInFlight.toNat ≤ Transport.maxPermits) :
    Dispatch.Delivers (s.idleJob provider notification endpoints elapsed) l
      (s.idleResult provider) := by
  have hrouted : (s.idleJob provider notification endpoints elapsed).transport.Routed := by
    by_cases hmem : provider.providerType ∈ s.providerTypes
    · rw [transport_idleJob_of_mem _ _ _ hmem]
      exact .ofCalls _ (h.resolve_left (not_not_intro hmem))
    · rw [transport_idleJob_of_notMem _ _ _ hmem]
      exact .rejecting
  exact Dispatch.delivers_of_unstale hrouted
    (s.answer_idleJob provider notification endpoints elapsed) (fun _ _ => rfl)
    (s.error_idleResult_ne provider) l

theorem delivers_idleJob_iff :
    Dispatch.Delivers (s.idleJob provider notification endpoints elapsed) l
        (s.idleResult provider) ↔
      endpoints = [] ∨ provider.providerType ∉ s.providerTypes ∨
        s.maxInFlight.toNat ≤ Transport.maxPermits := by
  by_cases h : provider.providerType ∉ s.providerTypes ∨ s.maxInFlight.toNat ≤ Transport.maxPermits
  · simp only [h, or_true, iff_true]
    exact s.delivers_idleJob provider notification endpoints elapsed l h
  · simp only [h, or_false]
    rw [not_or, not_not, Nat.not_le] at h
    have hfanOut := transport_idleJob_of_mem notification endpoints elapsed h.1
    exact Dispatch.delivers_iff_of_beyond hfanOut h.2 (fun _ _ => rfl) l

end TransportSettings

/-- Every limit but zero can be loaded. -/
theorem Settings.exists_load_maxInFlight_eq_iff {limit : UInt64} :
    (∃ read environment path, (load read environment path).transport.maxInFlight = limit) ↔
      limit ≠ 0 := by
  constructor
  · rintro ⟨read, environment, path, rfl⟩
    exact maxInFlight_load_ne_zero read environment path
  · intro hne
    let text := Numeral.decimal limit.toNat
    let environment : Environment := fun _ => some text
    have hpos : 0 < limit.toNat := by
      apply Nat.pos_of_ne_zero
      exact fun h => hne (UInt64.toNat.inj h)
    have hload := (decided environment).maxInFlight rfl (Numeral.readNatural_decimal limit.toNat)
      hpos limit.toNat_lt_size (fun _ => .missing) none
    exact ⟨_, environment, none, UInt64.toNat.inj hload⟩

/-- A limit can be loaded exactly if it is not zero. Over the idle registry of some settings,
whatever the store, a dispatch delivers exactly if there is nothing to deliver, its type is not
served, or the limit is within the permits that exist. -/
theorem delivers_iff_within_permits {σ : Type} [SubscriptionStore σ] (l : Ledger σ)
    (s : TransportSettings) (provider : Provider) (notification : Notification)
    (endpoints : List Endpoint) (elapsed : Binary64) :
    ((∃ read environment path,
        (Settings.load read environment path).transport.maxInFlight = s.maxInFlight) ↔
      s.maxInFlight ≠ 0) ∧
    (Dispatch.Delivers (s.idleJob provider notification endpoints elapsed) l
        (s.idleResult provider) ↔
      endpoints = [] ∨ provider.providerType ∉ s.providerTypes ∨
        s.maxInFlight.toNat ≤ Transport.maxPermits) :=
  ⟨Settings.exists_load_maxInFlight_eq_iff,
    s.delivers_idleJob_iff provider notification endpoints elapsed l⟩

/-- One more than the permits that exist is accepted as a limit, and the endpoint gets no result. -/
theorem nothing_delivered_beyond_permits :
    let p : Provider := ⟨1, 1, "main", "gcm", ∅⟩
    let e : Endpoint := ⟨1, "gcm", "k", none, ∅⟩
    let l : Ledger MemoryStore := ⟨{}, [], none⟩
    ∃ s, (Settings.parse "[transport]\nmax_in_flight = 2305843009213693952\n").toOption = some s ∧
      s.transport.providerTypes = ["gcm", "apns"] ∧
      ¬ Dispatch.Delivers (s.transport.idleJob p {} [e] ⟨0⟩) l (s.transport.idleResult p) ∧
      ∀ labels t l', Dispatch.Run (s.transport.idleJob p {} [e] ⟨0⟩)
        ((s.transport.idleJob p {} [e] ⟨0⟩).start, l) labels (t, l') →
          (∀ label ∈ labels, label.isOrdinary = true) → t.history.taken = [] := by
  intro p e l
  let s : Settings := { transport := { maxInFlight := 2305843009213693952 } }
  have hparse : (Settings.parse "[transport]\nmax_in_flight = 2305843009213693952\n").toOption =
      some s := by decide +kernel
  have hj : (s.transport.idleJob p {} [e] ⟨0⟩).transport = .ofLimit .idle 2305843009213693952 :=
    TransportSettings.transport_idleJob_of_mem _ _ _ (by decide)
  have hlimit : Transport.maxPermits < (2305843009213693952 : UInt64).toNat := by decide
  refine ⟨s, hparse, rfl, ?_, fun labels t l' hrun hlabels => ?_⟩
  · rw [Dispatch.delivers_iff_of_beyond hj hlimit fun _ _ => rfl]
    exact List.cons_ne_nil e []
  · exact Dispatch.taken_eq_nil_of_beyond hj hlimit (fun _ _ => rfl) hrun hlabels

end PushDelivery
