/-
  Mapping one call, and mapping every call.

  A response can be mapped by whoever made the call, or by a layer around the client.  Both bind the
  same mapper to the same run, so they come to the same; only the layer reports the failures that it
  made (`Layer.mapping_call`).

  Whatever is inside, nothing is left to map where a mapper stands already and the layers around it
  make no error response of their own (`Layer.KeepsSettled`).  Then either way of mapping gives back
  the run as it was, its trace included.
-/
import PlatformClient.Proofs.Layers

namespace PlatformClient

/-! ## A mapper more -/

/-- Mapping the result of a run makes this failure. -/
def Mapper.Fails (m : Mapper) (x : Run Response) (f : Failure) : Prop :=
  ∃ r, x.result = .ok r ∧ (m.map r).result = .error (.api f)

/-- Two ways to map the result of a run, the second of which reports what it does. -/
structure AddsReport (m : Mapper) (inner mapped layered : Run Response) : Prop where
  result : layered.result = mapped.result
  taken : layered.taken = mapped.taken
  sent : layered.sent = mapped.sent
  /-- A failure that the mapper made is reported, as the last thing. -/
  reported : ∀ f, m.Fails inner f →
    ∃ report : Entry, layered.trace = mapped.trace ++ [report] ∧ report.spans = [] ∧
      report.event = .mapped m.schema f ∧ report.event.level = .warn ∧
      report.event.message = "error response mapped to failure"
  /-- And nothing else is. -/
  silent : (∀ f, ¬ m.Fails inner f) → layered.trace = mapped.trace

/-- Only a failure that the mapper made is reported. -/
theorem Mapper.event_eq_none {m : Mapper} {result : Except Error Response}
    (h : ∀ f, result ≠ .error (.api f)) : m.event result = none := by
  cases result with
  | ok r => rfl
  | error e =>
    cases e with
    | api f => exact absurd rfl (h f)
    | _ => rfl

/-- A mapper within adds its own report to a call that is mapped from without, and nothing else. -/
theorem Layer.mapping_call (m : Mapper) (s : Service) (request : Request) :
    AddsReport m (s.call request) (s.callMapped request m) ((mapping m s).call request) := by
  obtain ⟨hresult, htaken, hsent⟩ := mapping_call_agrees m s request
  have hmapped : s.callMapped request m = (s.call request).bind m.map := rfl
  have hlayered : (mapping m s).call request =
      (s.call request).bind fun r => (m.map r).reportEnd m.event := rfl
  refine ⟨hresult, htaken, hsent, ?_, ?_⟩
  · rintro f ⟨r, hr, hf⟩
    refine ⟨⟨.mapped m.schema f, []⟩, ?_, rfl, rfl, rfl, rfl⟩
    have hevent : m.event (m.map r).result = some (.mapped m.schema f) := by
      rw [hf]
      rfl
    rw [hlayered, hmapped, Run.bind, Run.bind, hr]
    dsimp only
    rw [Run.reportEnd, hevent, List.append_assoc]
  · -- without a failure of the mapper, both only hand its result on
    intro hnone
    rw [hlayered, hmapped, Run.bind, Run.bind]
    cases hr : (s.call request).result with
    | error e => rfl
    | ok r =>
      have hevent : m.event (m.map r).result = none :=
        Mapper.event_eq_none fun f hf => hnone f ⟨r, hr, hf⟩
      dsimp only
      rw [Run.reportEnd, hevent]

/-! ## Settled services -/

/-- The layer makes no error response of its own. -/
def Layer.KeepsSettled (l : Layer) : Prop := ∀ s : Service, s.Settled → (l s).Settled

/-- No layer lets an error response through that did not come to it. -/
theorem Layer.mapping_keepsSettled (m : Mapper) : (mapping m).KeepsSettled :=
  fun s _ => settled_mapping m s

theorem Layer.logging_keepsSettled (l : Logger) : (logging l).KeepsSettled :=
  fun s h => (logging_agrees l s).settled h

theorem Middleware.keepsSettled (l : Middleware) : l.layer.KeepsSettled := by
  cases l with
  | mapping m => exact Layer.mapping_keepsSettled m
  | logging l => exact Layer.logging_keepsSettled l

namespace Service

/-- A service stays settled behind such layers. -/
theorem Settled.behind {s : Service} (h : s.Settled) {layers : List Layer}
    (hkeep : ∀ l ∈ layers, l.KeepsSettled) : (s.behind layers).Settled := by
  induction layers generalizing s with
  | nil => exact h
  | cons l layers ih =>
    have hl : (l s).Settled := hkeep l List.mem_cons_self s h
    exact ih hl fun l' hl' => hkeep l' (List.mem_cons_of_mem l hl')

/-- From a mapper on, a service is settled. -/
theorem settled_behind_mapper (s : Service) (before : List Layer) (m : Mapper) {after : List Layer}
    (hkeep : ∀ l ∈ after, l.KeepsSettled) :
    (s.behind (before ++ Layer.mapping m :: after)).Settled := by
  have hsplit : s.behind (before ++ Layer.mapping m :: after) =
      (Layer.mapping m (s.behind before)).behind after := List.foldl_append
  rw [hsplit]
  exact Settled.behind (Layer.settled_mapping m _) hkeep

/-- A settled service leaves nothing to map, to whoever would map it. -/
theorem Settled.mapped {s : Service} (h : s.Settled) (m : Mapper) (request : Request) :
    s.callMapped request m = s.call request ∧
      (Layer.mapping m s).call request = s.call request := by
  refine ⟨?_, Layer.mapping_call_of_lt (h request)⟩
  have hpass : ∀ r, (s.call request).result = .ok r → m.map r = Run.of (.ok r) :=
    fun r hr => Mapper.map_of_lt (h request r hr)
  show (s.call request).bind m.map = _
  rw [Run.bind_congr hpass, Run.bind_of]

end Service

/-! ## Clients -/

namespace Builder

/-- A layer that is added last stands outermost. -/
theorem stack_layer (clock : Clock) (b : Builder) (l : Layer) :
    (b.step (.layer l)).stack clock = b.stack clock ++ [l] :=
  (List.append_assoc _ _ _).symm

/-- A layer more stands around everything that was there. -/
theorem build_layer (transport : Config → Service) (clock : Clock) (b : Builder) (l : Layer) :
    (build transport clock (b.step (.layer l))).stack = l (build transport clock b).stack := by
  show (transport b.settings.config).behind ((b.step (.layer l)).stack clock) = _
  rw [stack_layer]
  exact List.foldl_append

/-- With any layers, a call whose response is mapped comes to what the same call comes to behind a
    mapping layer, which reports each failure that it makes; and neither does anything to a client
    that maps already, unless a layer further out makes error responses.  Both clients have the same
    layers inside, and these measure the same times. -/
theorem call_mapped_layered (transport : Config → Service) (clock : Clock) (b : Builder)
    (m : Mapper) (request : Request) :
    let inner := (build transport clock b).service.call request
    let perCall := (build transport clock b).service.callMapped request m
    let layered := (build transport clock (b.step (.layer (.mapping m)))).service.call request
    AddsReport m inner perCall layered ∧
      (∀ before m' after, b.layers = before ++ Layer.mapping m' :: after →
        (∀ l ∈ after, l.KeepsSettled) → perCall = inner ∧ layered = inner) ∧
      ∀ layers : List Middleware, b.layers = layers.map Middleware.layer →
        (∃ m', .mapping m' ∈ layers) → perCall = inner ∧ layered = inner := by
  intro inner perCall layered
  have hlayered : layered = (Layer.mapping m (build transport clock b).stack).call request := by
    show (build transport clock (b.step (.layer (.mapping m)))).stack.call request = _
    rw [build_layer]
  -- a mapper among the layers settles the service, and the layers around it keep it so
  have hsettled : ∀ before m' after, b.layers = before ++ Layer.mapping m' :: after →
      (∀ l ∈ after, l.KeepsSettled) → perCall = inner ∧ layered = inner := by
    intro before m' after hlayers hkeep
    have hstack : (build transport clock b).stack.Settled := by
      show ((transport b.settings.config).behind (b.stack clock)).Settled
      rw [stack, hlayers, ← List.append_assoc]
      exact Service.settled_behind_mapper _ _ m' hkeep
    rw [hlayered]
    exact hstack.mapped m request
  refine ⟨?_, hsettled, ?_⟩
  · rw [hlayered]
    exact Layer.mapping_call m (build transport clock b).stack request
  · rintro layers hlayers ⟨m', hm'⟩
    obtain ⟨before, after, rfl⟩ := List.append_of_mem hm'
    refine hsettled (before.map Middleware.layer) m' (after.map Middleware.layer) ?_ ?_
    · rw [hlayers, List.map_append]
      rfl
    · intro l hl
      obtain ⟨k, -, rfl⟩ := List.mem_map.mp hl
      exact k.keepsSettled

end Builder

end PlatformClient
