/-
  Which layer decides what a call comes to.

  1. **Agreement.**  Two services agree if they give every request the same result, take as much
     from bodies and send the same: only their traces may differ.  A logging layer agrees with what
     it stands around.
  2. **Settled services** give no error response as a result.  What a mapper stands around is
     settled from then on, and a settled service agrees with every layer around it.
  3. So of any layers around a service the innermost mapper alone decides (`behind_agrees`): by
     induction on the layers, from the inside out.
-/
import PlatformClient.Client
import PlatformClient.Proofs.Mapping

namespace PlatformClient

/-! ## Agreement -/

/-- The runs differ in their traces at most. -/
def Run.Agrees {α : Type} (x y : Run α) : Prop :=
  x.result = y.result ∧ x.taken = y.taken ∧ x.sent = y.sent

/-- The services differ in their traces at most. -/
def Service.Agrees (s t : Service) : Prop :=
  ∀ request, (s.call request).Agrees (t.call request)

namespace Run

variable {α β : Type} {x y z : Run α}

theorem Agrees.refl (x : Run α) : x.Agrees x := ⟨rfl, rfl, rfl⟩

theorem Agrees.trans (h : x.Agrees y) (h' : y.Agrees z) : x.Agrees z :=
  ⟨h.1.trans h'.1, h.2.1.trans h'.2.1, h.2.2.trans h'.2.2⟩

theorem Agrees.symm (h : x.Agrees y) : y.Agrees x := ⟨h.1.symm, h.2.1.symm, h.2.2.symm⟩

/-- Agreement goes through a continuation: what follows is given the same result, and adds the same
    to what was taken and sent. -/
theorem Agrees.bind (h : x.Agrees y) {f g : α → Run β} (hf : ∀ a, (f a).Agrees (g a)) :
    (x.bind f).Agrees (y.bind g) := by
  obtain ⟨hr, ht, hs⟩ := h
  unfold Run.bind
  rw [hr, ht, hs]
  cases y.result with
  | error e => exact ⟨rfl, rfl, rfl⟩
  | ok a =>
    obtain ⟨h1, h2, h3⟩ := hf a
    refine ⟨h1, ?_, ?_⟩
    · show _ + _ = _ + _
      rw [h2]
    · show _ ++ _ = _ ++ _
      rw [h3]

/-- Events never decide anything. -/
theorem reportEnd_agrees (event : Except Error α → Option Event) (x : Run α) :
    (x.reportEnd event).Agrees x := by
  unfold reportEnd
  split
  · exact .refl x
  · exact ⟨rfl, rfl, rfl⟩

/-- Neither do spans. -/
theorem inside_agrees (span : Span) (x : Run α) : (inside span x).Agrees x := ⟨rfl, rfl, rfl⟩

/-- Nor does an event in front. -/
theorem report_bind_agrees (event : Event) (x : Run α) :
    ((report event).bind fun _ => x).Agrees x :=
  ⟨rfl, Nat.zero_add x.taken, rfl⟩

/-- What comes after a run matters only for the result it has. -/
theorem bind_congr {f g : α → Run β} (h : ∀ a, x.result = .ok a → f a = g a) :
    x.bind f = x.bind g := by
  unfold Run.bind
  cases hr : x.result with
  | error e => rfl
  | ok a =>
    dsimp only
    rw [h a hr]

/-- A result that is handed on leaves a run as it is. -/
theorem bind_of (x : Run α) : (x.bind fun a => of (.ok a)) = x := by
  obtain ⟨result, taken, trace, sent⟩ := x
  cases result with
  | error e => rfl
  | ok a => simp [Run.bind, of]

end Run

namespace Service

theorem Agrees.refl (s : Service) : s.Agrees s := fun _ => .refl _

theorem Agrees.trans {s t u : Service} (h : s.Agrees t) (h' : t.Agrees u) : s.Agrees u :=
  fun request => (h request).trans (h' request)

/-! ## Settled services -/

/-- No result of the service is an error response. -/
def Settled (s : Service) : Prop :=
  ∀ request r, (s.call request).result = .ok r → r.status < 400

/-- A service that agrees with a settled one is settled. -/
theorem Agrees.settled {s t : Service} (h : s.Agrees t) (ht : t.Settled) : s.Settled := by
  intro request r hr
  rw [(h request).1] at hr
  exact ht request r hr

end Service

/-! ## Layers -/

namespace Layer

/-- A logging layer changes the trace at most. -/
theorem logging_agrees (l : Logger) (s : Service) : (logging l s).Agrees s := by
  intro request
  refine (Run.inside_agrees _ _).trans ((Run.report_bind_agrees _ _).trans ?_)
  exact Run.reportEnd_agrees _ _

/-- A mapping layer maps, and reports what it did. -/
theorem mapping_call_agrees (m : Mapper) (s : Service) (request : Request) :
    ((mapping m s).call request).Agrees ((s.call request).bind m.map) :=
  (Run.Agrees.refl _).bind fun _ => Run.reportEnd_agrees _ _

/-- A mapper sees nothing of the traces within. -/
theorem mapping_congr (m : Mapper) {s t : Service} (h : s.Agrees t) :
    (mapping m s).Agrees (mapping m t) := by
  intro request
  refine (mapping_call_agrees m s request).trans ?_
  refine Run.Agrees.trans ?_ (mapping_call_agrees m t request).symm
  exact (h request).bind fun _ => .refl _

/-- Behind a mapper no response is an error response: whatever the mapper is given, it fails or lets
    a response below 400 through. -/
theorem settled_mapping (m : Mapper) (s : Service) : (mapping m s).Settled := by
  intro request r hr
  rw [(mapping_call_agrees m s request).1] at hr
  unfold Run.bind at hr
  split at hr
  · cases hr
  · exact Mapper.map_status hr

/-- Where no error response comes through there is nothing to map, and nothing to report. -/
theorem mapping_call_of_lt {m : Mapper} {s : Service} {request : Request}
    (h : ∀ r, (s.call request).result = .ok r → r.status < 400) :
    (mapping m s).call request = s.call request := by
  have hpass : ∀ r, (s.call request).result = .ok r →
      (m.map r).reportEnd m.event = Run.of (.ok r) := by
    intro r hr
    rw [Mapper.map_of_lt (h r hr)]
    rfl
  show (s.call request).bind _ = _
  rw [Run.bind_congr hpass, Run.bind_of]

/-- So a second mapper around it has nothing to do. -/
theorem mapping_of_settled (m : Mapper) {s : Service} (h : s.Settled) :
    (mapping m s).Agrees s := by
  intro request
  rw [mapping_call_of_lt (h request)]
  exact .refl _

end Layer

/-! ## Layers around a service -/

/-- The mapper of a middleware, if it is one. -/
def Middleware.mapper? : Middleware → Option Mapper
  | .mapping m => some m
  | .logging _ => none

/-- The logger of a middleware, if it is one. -/
def Middleware.logger? : Middleware → Option Logger
  | .logging l => some l
  | .mapping _ => none

/-- The loggers among layers, the innermost first. -/
def logged (layers : List Middleware) : List Logger := layers.filterMap Middleware.logger?

/-- The innermost mapper. -/
def firstMapper (layers : List Middleware) : Option Mapper := layers.findSome? Middleware.mapper?

namespace Service

/-- No layer changes a settled service. -/
theorem behind_of_settled (layers : List Middleware) {s : Service} (h : s.Settled) :
    (s.behind (layers.map Middleware.layer)).Agrees s := by
  induction layers generalizing s with
  | nil => exact .refl s
  | cons l layers ih =>
    have hl : (l.layer s).Agrees s := by
      cases l with
      | mapping m => exact Layer.mapping_of_settled m h
      | logging l => exact Layer.logging_agrees l s
    exact (ih (hl.settled h)).trans hl

/-- The service with at most one mapper around it. -/
def mappedBy (s : Service) : Option Mapper → Service
  | none => s
  | some m => Layer.mapping m s

/-- The innermost mapper alone decides. -/
theorem behind_agrees (layers : List Middleware) (s : Service) :
    (s.behind (layers.map Middleware.layer)).Agrees (s.mappedBy (firstMapper layers)) := by
  induction layers generalizing s with
  | nil => exact .refl s
  | cons l layers ih =>
    cases l with
    | mapping m =>
      -- from this mapper on the service is settled
      show ((Layer.mapping m s).behind (layers.map Middleware.layer)).Agrees (Layer.mapping m s)
      exact behind_of_settled layers (Layer.settled_mapping m s)
    | logging l =>
      -- the mapper is further out, and maps what agrees with the service without logging
      refine (ih (Layer.logging l s)).trans ?_
      show ((Layer.logging l s).mappedBy (firstMapper layers)).Agrees
        (s.mappedBy (firstMapper layers))
      cases firstMapper layers with
      | none => exact Layer.logging_agrees l s
      | some m => exact Layer.mapping_congr m (Layer.logging_agrees l s)

end Service

/-! ## Clients -/

/-- The transport that has an outcome for each request, and takes nothing from bodies itself. -/
def Service.answering (ready : Except Error Unit) (outcome : Request → Except Error Response) :
    Service :=
  ⟨ready, fun request => ⟨outcome request, 0, [], [request]⟩⟩

/-- An outcome, mapped by at most one mapper. -/
def mapOutcome (outcome : Except Error Response) : Option Mapper → Run Response
  | none => Run.of outcome
  | some m => (Run.of outcome).bind m.map

/-- A service with at most one mapper around it is mapped once. -/
theorem Service.mappedBy_call (s : Service) (m? : Option Mapper) (request : Request) :
    let run := (s.mappedBy m?).call request
    let inner := s.call request
    let alone := mapOutcome inner.result m?
    run.result = alone.result ∧ run.taken = inner.taken + alone.taken ∧ run.sent = inner.sent := by
  cases m? with
  | none => exact ⟨rfl, (Nat.add_zero _).symm, rfl⟩
  | some m =>
    obtain ⟨hr, ht, hs⟩ := Layer.mapping_call_agrees m s request
    dsimp only [Service.mappedBy, mapOutcome]
    rw [hr, ht, hs]
    unfold Run.bind
    dsimp only [Run.of]
    cases (s.call request).result with
    | error e => exact ⟨rfl, (Nat.add_zero _).symm, rfl⟩
    | ok r =>
      refine ⟨rfl, ?_, ?_⟩
      · show _ = (s.call request).taken + (0 + (m.map r).taken)
        rw [Nat.zero_add]
      · show (s.call request).sent ++ (m.map r).sent = (s.call request).sent
        rw [m.map_sent r, List.append_nil]

/-- A service with one given outcome, behind at most one mapper: one request is sent, and the mapper
    decides the rest. -/
theorem Service.mappedBy_answering (ready : Except Error Unit)
    (outcome : Request → Except Error Response) (m? : Option Mapper) (request : Request) :
    let run := ((Service.answering ready outcome).mappedBy m?).call request
    let alone := mapOutcome (outcome request) m?
    run.sent = [request] ∧ run.result = alone.result ∧ run.taken = alone.taken := by
  obtain ⟨hr, ht, hs⟩ := (Service.answering ready outcome).mappedBy_call m? request
  exact ⟨hs, hr, ht.trans (Nat.zero_add _)⟩

/-- A response that comes out of a mapper is below 400. -/
theorem mapOutcome_status (outcome : Except Error Response) (m : Mapper) {r : Response}
    (h : (mapOutcome outcome (some m)).result = .ok r) : r.status < 400 := by
  cases outcome with
  | error e => cases h
  | ok r' =>
    rw [mapOutcome, Run.bind_of_ok] at h
    exact Mapper.map_status h

/-- Where there is a mapper, there is a first one. -/
theorem exists_firstMapper {layers : List Middleware} {m : Mapper} (h : .mapping m ∈ layers) :
    ∃ m', firstMapper layers = some m' := by
  rw [← Option.isSome_iff_exists, firstMapper, List.findSome?_isSome_iff]
  exact ⟨_, h, rfl⟩

/-- Logging layers do not count for the first mapper. -/
theorem firstMapper_eq_head (layers : List Middleware) :
    firstMapper layers = (layers.filterMap Middleware.mapper?).head? :=
  List.head?_filterMap.symm

namespace Builder

/-- All layers around the transport, the innermost first; the clock is that of the default one. -/
def middlewares (clock : Clock) (layers : List Middleware) (defaults : Bool) : List Middleware :=
  (if defaults then [.logging (.summary clock)] else []) ++ layers

/-- The layers of a client are those that were added, with the default ones within. -/
theorem stack_eq (clock : Clock) (settings : Settings) (layers : List Middleware)
    (defaults : Bool) :
    stack clock ⟨settings, layers.map Middleware.layer, defaults⟩ =
      (middlewares clock layers defaults).map Middleware.layer := by
  cases defaults with
  | false => rfl
  | true => rfl

/-- The default layer does not map. -/
theorem firstMapper_middlewares (clock : Clock) (layers : List Middleware) (defaults : Bool) :
    firstMapper (middlewares clock layers defaults) = firstMapper layers := by
  cases defaults with
  | false => rfl
  | true => rfl

/-- A call of a client with these layers, whose transport has these outcomes. -/
def callWith (settings : Settings) (ready : Except Error Unit)
    (outcome : Config → Request → Except Error Response) (clock : Clock)
    (layers : List Middleware) (defaults : Bool) (request : Request) : Run Response :=
  (build (fun config => .answering ready (outcome config)) clock
    ⟨settings, layers.map Middleware.layer, defaults⟩).service.call request

/-- What the first mapper of the layers decides about a call with this outcome. -/
structure DecidedByFirst (layers : List Middleware) (request : Request)
    (outcome : Except Error Response) (run : Run Response) : Prop where
  /-- The transport is called once, with the request as it is. -/
  sent : run.sent = [request]
  /-- The result is that of the first mapper alone. -/
  result : run.result = (mapOutcome outcome (firstMapper layers)).result
  /-- As much is taken from the body as by the first mapper alone. -/
  taken : run.taken = (mapOutcome outcome (firstMapper layers)).taken
  /-- An error of the transport is the call's. -/
  untouched : ∀ e, outcome = .error e → run.result = .error e ∧ run.taken = 0
  /-- With a mapper, no error response comes through. -/
  no_error_response : ∀ m, .mapping m ∈ layers → ∀ r, run.result = .ok r → r.status < 400

/-- Of any transport, the first mapper alone decides. -/
theorem build_agrees (transport : Config → Service) (clock : Clock) (settings : Settings)
    (layers : List Middleware) (defaults : Bool) (request : Request) :
    ((build transport clock ⟨settings, layers.map Middleware.layer, defaults⟩).service.call
        request).Agrees
      (((transport settings.config).mappedBy (firstMapper layers)).call request) := by
  have h := Service.behind_agrees (middlewares clock layers defaults)
    (transport settings.config) request
  rw [← stack_eq clock settings, firstMapper_middlewares] at h
  exact h

/-- A whole call agrees with one through the first mapper alone, whatever the other layers are. -/
theorem callWith_agrees (settings : Settings) (ready : Except Error Unit)
    (outcome : Config → Request → Except Error Response) (clock : Clock)
    (layers : List Middleware) (defaults : Bool) (request : Request) :
    (callWith settings ready outcome clock layers defaults request).Agrees
      (((Service.answering ready (outcome settings.config)).mappedBy
        (firstMapper layers)).call request) :=
  build_agrees (fun config => .answering ready (outcome config)) clock settings layers
    defaults request

/-- Hence the first mapper decides it. -/
theorem callWith_decided (settings : Settings) (ready : Except Error Unit)
    (outcome : Config → Request → Except Error Response) (clock : Clock)
    (layers : List Middleware) (defaults : Bool) (request : Request) :
    DecidedByFirst layers request (outcome settings.config request)
      (callWith settings ready outcome clock layers defaults request) := by
  obtain ⟨hr, ht, hs⟩ := callWith_agrees settings ready outcome clock layers defaults request
  obtain ⟨hs', hr', ht'⟩ := Service.mappedBy_answering ready (outcome settings.config)
    (firstMapper layers) request
  refine ⟨hs.trans hs', hr.trans hr', ht.trans ht', ?_, ?_⟩
  · -- an error leaves a mapper nothing to do
    intro e he
    rw [hr.trans hr', ht.trans ht', he]
    cases firstMapper layers with
    | none => exact ⟨rfl, rfl⟩
    | some m => exact ⟨rfl, rfl⟩
  · intro m hm r hok
    obtain ⟨m', hm'⟩ := exists_firstMapper hm
    rw [hr.trans hr', hm'] at hok
    exact mapOutcome_status _ m' hok

/-- The first mapper alone decides what a call comes to; layers that log do not count, wherever they
    stand and however many they are. -/
theorem first_mapper_decides (settings : Settings) (ready : Except Error Unit)
    (outcome : Config → Request → Except Error Response) (clock : Clock)
    (layers : List Middleware) (defaults : Bool) (request : Request) :
    DecidedByFirst layers request (outcome settings.config request)
        (callWith settings ready outcome clock layers defaults request) ∧
      ∀ clock' layers' defaults',
        layers'.filterMap Middleware.mapper? = layers.filterMap Middleware.mapper? →
          (callWith settings ready outcome clock' layers' defaults' request).Agrees
            (callWith settings ready outcome clock layers defaults request) := by
  refine ⟨callWith_decided settings ready outcome clock layers defaults request, ?_⟩
  intro clock' layers' defaults' hmappers
  have hfirst : firstMapper layers' = firstMapper layers := by
    rw [firstMapper_eq_head, firstMapper_eq_head, hmappers]
  have h := callWith_agrees settings ready outcome clock' layers' defaults' request
  rw [hfirst] at h
  exact h.trans (callWith_agrees settings ready outcome clock layers defaults request).symm

end Builder

end PlatformClient
