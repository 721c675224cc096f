/-
  What summaries do not tell.

  Two calls are compared that differ in everything a summary has to keep to itself: the headers and
  the body of the request, the headers of the response, and the body of a response without error.

  1. **Times.**  How long a call took is told by the event of its end, and it may differ between two
     calls that are alike in everything else.  So traces are compared twice: without their times
     (`Trace.untimed`), and by the times alone (`Trace.times`).  The two together are all of a trace
     (`Trace.ext_times`).
  2. **Alike outcomes** are the same error, or responses with the same status — and, from 400 on,
     with bodies that are read alike.  A mapper makes alike outcomes of alike outcomes and reports
     the same about both (`Mapper.map_alike`): it reads the body and the status, and no more.
  3. **Alike runs** have alike outcomes and the same trace but for times.  Each layer that shows no
     headers keeps runs alike, for requests with the same span, whatever the clocks show.
  4. So layers around alike services are alike (`behind_alike`), and the times in a trace are those
     that the logging layers measured (`behind_times`): by induction on the layers, from the inside
     out.  Both traces are the same just if the times are.
-/
import Mathlib.Data.List.Forall2
import PlatformClient.Proofs.Tracing

namespace PlatformClient

/-! ## Times in traces -/

namespace Event

/-- The time that an event tells, if it tells one. -/
def elapsed? : Event → Option Nat
  | .completed _ elapsed _ | .httpError _ elapsed | .apiError _ elapsed | .failed _ elapsed =>
    some elapsed
  | .sending _ | .unmatched .. | .mapped .. => none

/-- The same event, as if no time had passed. -/
def untimed : Event → Event
  | .completed status _ headers => .completed status 0 headers
  | .httpError status _ => .httpError status 0
  | .apiError failure _ => .apiError failure 0
  | .failed error _ => .failed error 0
  | e => e

/-- Events that are the same without their times show the same: level, message, the names of their
    fields in the same order, and the values of all fields but that of the time. -/
theorem shown_of_untimed {e e' : Event} (h : e.untimed = e'.untimed) :
    e.level = e'.level ∧ e.message = e'.message ∧
      e.fields.map Prod.fst = e'.fields.map Prod.fst ∧
      e.fields.filter (·.1 ≠ "elapsed_ms") = e'.fields.filter (·.1 ≠ "elapsed_ms") := by
  have hshown : ∀ e : Event, e.level = e.untimed.level ∧ e.message = e.untimed.message ∧
      e.fields.map Prod.fst = e.untimed.fields.map Prod.fst ∧
      e.fields.filter (·.1 ≠ "elapsed_ms") = e.untimed.fields.filter (·.1 ≠ "elapsed_ms") := by
    intro e
    cases e <;> simp [untimed, level, message, fields, timeField]
  obtain ⟨hlevel, hmessage, hnames, hvalues⟩ := hshown e
  obtain ⟨hlevel', hmessage', hnames', hvalues'⟩ := hshown e'
  rw [hlevel, hmessage, hnames, hvalues, h]
  exact ⟨hlevel'.symm, hmessage'.symm, hnames'.symm, hvalues'.symm⟩

/-- Whether an event tells a time is seen without it. -/
theorem elapsed?_isSome {e e' : Event} (h : e.untimed = e'.untimed) :
    e.elapsed?.isSome = e'.elapsed?.isSome := by
  have hsome : ∀ e : Event, e.elapsed?.isSome = e.untimed.elapsed?.isSome := by
    intro e
    cases e <;> rfl
  rw [hsome e, hsome e', h]

/-- An event is what it is without its time, together with its time. -/
theorem ext_times {e e' : Event} (h : e.untimed = e'.untimed) (ht : e.elapsed? = e'.elapsed?) :
    e = e' := by
  cases e <;> cases e' <;> simp_all [untimed, elapsed?]

end Event

/-- The same entry, as if no time had passed. -/
def Entry.untimed (e : Entry) : Entry := { e with event := e.event.untimed }

namespace Trace

/-- The same trace, as if no time had passed. -/
def untimed (t : Trace) : Trace := t.map Entry.untimed

/-- The times that a trace tells, in order. -/
def times (t : Trace) : List Nat := t.filterMap fun e => e.event.elapsed?

theorem untimed_append (t u : Trace) : untimed (t ++ u) = untimed t ++ untimed u :=
  List.map_append

theorem times_append (t u : Trace) : times (t ++ u) = times t ++ times u := List.filterMap_append

/-- Spans hold no times. -/
theorem untimed_inside (span : Span) (t : Trace) :
    untimed (t.map (Entry.inside span)) = (untimed t).map (Entry.inside span) := by
  unfold untimed
  rw [List.map_map, List.map_map]
  rfl

theorem untimed_cons (e : Entry) (t : Trace) : untimed (e :: t) = e.untimed :: untimed t :=
  List.map_cons

theorem untimed_within (event : Event) (span : Span) (depth : Nat) :
    untimed [event.within span depth] = [event.untimed.within span depth] := rfl

theorem times_cons_none {e : Entry} (t : Trace) (h : e.event.elapsed? = none) :
    times (e :: t) = times t := List.filterMap_cons_none h

theorem times_singleton {e : Entry} {n : Nat} (h : e.event.elapsed? = some n) :
    times [e] = [n] := List.filterMap_cons_some h

/-- Putting events into a span keeps their times, in order. -/
theorem times_inside (span : Span) (t : Trace) : times (t.map (Entry.inside span)) = times t := by
  unfold times
  rw [List.filterMap_map]
  rfl

/-- A trace is what it is without its times, together with them. -/
theorem ext_times {t t' : Trace} (h : untimed t = untimed t') (ht : times t = times t') :
    t = t' := by
  induction t generalizing t' with
  | nil => exact (List.map_eq_nil_iff.mp h.symm).symm
  | cons e t ih =>
    cases t' with
    | nil => cases h
    | cons e' t' =>
      obtain ⟨hentry, hrest⟩ := List.cons.inj h
      have hevent : e.event.untimed = e'.event.untimed := congrArg Entry.event hentry
      have hspans : e.untimed.spans = e'.untimed.spans := congrArg Entry.spans hentry
      -- the first times, if there are any, are those of the first entries
      have hsome := Event.elapsed?_isSome hevent
      obtain ⟨helapsed, htimes⟩ : e.event.elapsed? = e'.event.elapsed? ∧ times t = times t' := by
        rw [times, times, List.filterMap_cons, List.filterMap_cons] at ht
        cases he : e.event.elapsed? with
        | none =>
          have he' : e'.event.elapsed? = none := by simpa [he] using hsome.symm
          rw [he, he'] at ht
          exact ⟨he'.symm, ht⟩
        | some n =>
          obtain ⟨n', he'⟩ : ∃ n', e'.event.elapsed? = some n' := by
            rw [← Option.isSome_iff_exists, ← hsome, he]
            rfl
          rw [he, he'] at ht
          obtain ⟨rfl, hrest⟩ := List.cons.inj ht
          exact ⟨he'.symm, hrest⟩
      have hsame : e = e' := by
        cases e
        cases e'
        exact congr (congrArg Entry.mk (Event.ext_times hevent helapsed)) hspans
      rw [hsame, ih hrest htimes]

end Trace

/-! ## Alike outcomes -/

/-- Two outcomes of which a summary tells the same. -/
inductive Alike : Except Error Response → Except Error Response → Prop where
  | error (e : Error) : Alike (.error e) (.error e)
  | response {r r' : Response} (hstatus : r.status = r'.status)
      (hbody : 400 ≤ r.status → r.body.collect = r'.body.collect) : Alike (.ok r) (.ok r')

namespace Alike

variable {x y : Except Error Response}

/-- A summary tells of a response only its status, and the time. -/
theorem completion_eq (h : Alike x y) (elapsed elapsed' : Nat) :
    (Detail.summary.completion elapsed x).untimed =
      (Detail.summary.completion elapsed' y).untimed := by
  cases h with
  | error e => cases e <;> rfl
  | @response r r' hstatus hbody =>
    have herror : r.isError = r'.isError := by rw [Response.isError, Response.isError, hstatus]
    simp only [Detail.completion, Detail.shown, herror, hstatus]
    split
    · rfl
    · rfl

/-- A mapping layer tells of a failure only what it is classified as. -/
theorem event_eq (m : Mapper) (h : Alike x y) : m.event x = m.event y := by
  cases h with
  | error e => rfl
  | response hstatus hbody => rfl

end Alike

/-! ## Alike runs -/

/-- The runs report the same but for times, and have alike outcomes. -/
def Run.Alike (x y : Run Response) : Prop :=
  PlatformClient.Alike x.result y.result ∧ x.trace.untimed = y.trace.untimed

namespace Run

variable {x y : Run Response}

/-- What comes after alike runs is compared only for alike responses. -/
theorem Alike.bind (h : x.Alike y) {f g : Response → Run Response}
    (hfg : ∀ r r', PlatformClient.Alike (.ok r) (.ok r') → (f r).Alike (g r')) :
    (x.bind f).Alike (y.bind g) := by
  obtain ⟨hresult, htrace⟩ := h
  unfold Run.bind
  generalize x.result = rx, y.result = ry at hresult
  cases hresult with
  | error e => exact ⟨.error e, htrace⟩
  | @response r r' hstatus hbody =>
    obtain ⟨hr, ht⟩ := hfg r r' (.response hstatus hbody)
    refine ⟨hr, ?_⟩
    show Trace.untimed (x.trace ++ _) = Trace.untimed (y.trace ++ _)
    rw [Trace.untimed_append, Trace.untimed_append, htrace, ht]

/-- An event at the end does not tell alike runs apart if alike outcomes have the same one. -/
theorem Alike.reportEnd (h : x.Alike y) {event : Except Error Response → Option Event}
    (hevent : ∀ {a b}, PlatformClient.Alike a b → event a = event b) :
    (x.reportEnd event).Alike (y.reportEnd event) := by
  obtain ⟨hresult, htrace⟩ := h
  unfold Run.reportEnd
  rw [hevent hresult]
  cases event y.result with
  | none => exact ⟨hresult, htrace⟩
  | some e =>
    refine ⟨hresult, ?_⟩
    show Trace.untimed (x.trace ++ _) = Trace.untimed (y.trace ++ _)
    rw [Trace.untimed_append, Trace.untimed_append, htrace]

end Run

/-- A mapper reads the status and, of an error response, the body: nothing else comes out. -/
theorem Mapper.map_alike (m : Mapper) {r r' : Response} (h : Alike (.ok r) (.ok r')) :
    (m.map r).Alike (m.map r') := by
  obtain ⟨hstatus, hbody⟩ : r.status = r'.status ∧
      (400 ≤ r.status → r.body.collect = r'.body.collect) := by
    cases h with
    | response hstatus hbody => exact ⟨hstatus, hbody⟩
  rcases Nat.lt_or_ge r.status 400 with hlt | hge
  · -- both pass as they are
    have hlt' : r'.status < 400 := by rwa [← hstatus]
    rw [Mapper.map_of_lt hlt, Mapper.map_of_lt hlt']
    exact ⟨.response hstatus hbody, rfl⟩
  · -- both are read to their ends, and what is read is classified
    have hge' : 400 ≤ r'.status := by rwa [← hstatus]
    rw [Mapper.map_of_le hge, Mapper.map_of_le hge', hbody hge, hstatus]
    cases r'.body.collect with
    | error e => exact ⟨.error e, rfl⟩
    | ok payload => exact ⟨.error _, rfl⟩

/-! ## Layers -/

/-- The same layer in two calls: the clocks may show different times, and of layers that log only
    those that show no headers count. -/
inductive Middleware.SameSummary : Middleware → Middleware → Prop where
  | mapping (m : Mapper) : SameSummary (.mapping m) (.mapping m)
  | logging (clock clock' : Clock) :
      SameSummary (.logging (.summary clock)) (.logging (.summary clock'))

/-- The times that the logging layers measure of a call, the innermost first. -/
def measured (layers : List Middleware) (request : Request) : List Nat :=
  (logged layers).map fun l => l.elapsed request

section Layers

variable {s t : Service} {request request' : Request}

/-- A mapper reports the failure it made of a body, and the bodies are alike. -/
theorem Layer.mapping_alike (m : Mapper) (h : (s.call request).Alike (t.call request')) :
    ((Layer.mapping m s).call request).Alike ((Layer.mapping m t).call request') := by
  refine h.bind ?_
  intro r r' hr
  exact (m.map_alike hr).reportEnd fun hab => hab.event_eq m

/-- A summary shows the span of the request, the time, and no headers. -/
theorem Layer.logging_alike (clock clock' : Clock) (hspan : Span.of request = Span.of request')
    (h : (s.call request).Alike (t.call request')) :
    ((Layer.logging (.summary clock) s).call request).Alike
      ((Layer.logging (.summary clock') t).call request') := by
  obtain ⟨hresult, htrace⟩ := h
  refine ⟨?_, ?_⟩
  · rw [(Layer.logging_agrees _ s request).1, (Layer.logging_agrees _ t request').1]
    exact hresult
  · have hend : ((Logger.summary clock).finish request (s.call request).result).untimed =
        ((Logger.summary clock').finish request' (t.call request').result).untimed :=
      hresult.completion_eq _ _
    rw [Layer.logging_trace, Layer.logging_trace, Trace.untimed_cons, Trace.untimed_cons,
      Trace.untimed_append, Trace.untimed_append, Trace.untimed_inside, Trace.untimed_inside, htrace,
      Trace.untimed_within, Trace.untimed_within, hend, hspan]
    rfl

/-- Layers that show no headers keep two calls alike. -/
theorem Service.behind_alike {layers layers' : List Middleware}
    (hlayers : List.Forall₂ Middleware.SameSummary layers layers')
    (hspan : Span.of request = Span.of request') (h : (s.call request).Alike (t.call request')) :
    ((s.behind (layers.map Middleware.layer)).call request).Alike
      ((t.behind (layers'.map Middleware.layer)).call request') := by
  induction hlayers generalizing s t with
  | nil => exact h
  | @cons l l' layers layers' hl _ ih =>
    -- the innermost layer keeps the services alike; the others stand around what it makes of them
    refine ih (s := l.layer s) (t := l'.layer t) ?_
    cases hl with
    | mapping m => exact Layer.mapping_alike m h
    | logging clock clock' => exact Layer.logging_alike clock clock' hspan h

/-- A mapper tells no time. -/
theorem Layer.mapping_times (m : Mapper) (s : Service) (request : Request) :
    ((Layer.mapping m s).call request).trace.times = (s.call request).trace.times := by
  have hreports : ∀ result, Trace.times (mapperReports (some m) result) = [] := by
    intro result
    cases result with
    | error e => rfl
    | ok r =>
      have hreports := m.reports_of r
      show Trace.times (m.reports r) = []
      generalize m.reports r = reports at hreports
      cases hreports <;> rfl
  rw [Layer.mapping_trace, Trace.times_append, hreports, List.append_nil]

theorem Logger.start_elapsed? (l : Logger) (request : Request) :
    (l.start request).elapsed? = none := rfl

/-- However a call ended, the event of its end tells the time that was measured. -/
theorem Logger.finish_elapsed? (l : Logger) (request : Request) (result : Except Error Response) :
    (l.finish request result).elapsed? = some (l.elapsed request) := by
  unfold Logger.finish Detail.completion
  split
  · split <;> rfl
  · rfl
  · rfl

/-- A logging layer tells the time that it measured, behind those told inside it. -/
theorem Layer.logging_times (l : Logger) (s : Service) (request : Request) :
    ((Layer.logging l s).call request).trace.times =
      (s.call request).trace.times ++ [l.elapsed request] := by
  rw [Layer.logging_trace, Trace.times_cons_none _ (l.start_elapsed? request), Trace.times_append,
    Trace.times_inside, Trace.times_singleton (l.finish_elapsed? request _)]

/-- The times in a trace are those that the logging layers measured. -/
theorem Service.behind_times (layers : List Middleware) (s : Service) (request : Request) :
    ((s.behind (layers.map Middleware.layer)).call request).trace.times =
      (s.call request).trace.times ++ measured layers request := by
  induction layers generalizing s with
  | nil => exact (List.append_nil _).symm
  | cons l layers ih =>
    rw [behind_cons, ih]
    cases l with
    | mapping m => exact congrArg (· ++ measured layers request) (Layer.mapping_times m s request)
    | logging l =>
      show ((Layer.logging l s).call request).trace.times ++ _ = _
      rw [Layer.logging_times, List.append_assoc]
      rfl

end Layers

/-! ## Clients -/

namespace Builder

/-- Corresponding logging layers, the default one included, measure the same times in two calls. -/
def SameTimes (clock clock' : Clock) (layers layers' : List Middleware) (defaults : Bool)
    (request request' : Request) : Prop :=
  measured (middlewares clock layers defaults) request =
    measured (middlewares clock' layers' defaults) request'

/-- Of any transports whose runs are alike, layers that show no headers make alike calls. -/
theorem build_alike (transport transport' : Config → Service) (clock clock' : Clock)
    {settings settings' : Settings} {layers layers' : List Middleware}
    (hlayers : List.Forall₂ Middleware.SameSummary layers layers') (defaults : Bool)
    {request request' : Request} (hspan : Span.of request = Span.of request')
    (h : ((transport settings.config).call request).Alike
      ((transport' settings'.config).call request')) :
    ((build transport clock ⟨settings, layers.map Middleware.layer, defaults⟩).service.call
        request).Alike
      ((build transport' clock' ⟨settings', layers'.map Middleware.layer, defaults⟩).service.call
        request') := by
  have hall : List.Forall₂ Middleware.SameSummary (middlewares clock layers defaults)
      (middlewares clock' layers' defaults) := by
    cases defaults with
    | false => exact hlayers
    | true => exact .cons (.logging clock clock') hlayers
  have hbehind := Service.behind_alike hall hspan h
  rw [← stack_eq clock settings, ← stack_eq clock' settings'] at hbehind
  exact hbehind

/-- The times that a call tells are those that its logging layers measured. -/
theorem callWith_times (settings : Settings) (ready : Except Error Unit)
    (outcome : Config → Request → Except Error Response) (clock : Clock)
    (layers : List Middleware) (defaults : Bool) (request : Request) :
    (callWith settings ready outcome clock layers defaults request).trace.times =
      measured (middlewares clock layers defaults) request := by
  have htimes := Service.behind_times (middlewares clock layers defaults)
    (.answering ready (outcome settings.config)) request
  rw [← stack_eq clock settings] at htimes
  exact htimes

/-- Without a layer that shows headers, two calls report the same but for the times they took, if
    their requests have the same method and URL and their outcomes are the same error, or have the
    same status and — from 400 on — the same body.  So their traces are the same just if the same
    times were measured: headers and request bodies leave no mark in them. -/
theorem summaries_confidential {layers layers' : List Middleware}
    (hlayers : List.Forall₂ Middleware.SameSummary layers layers') (defaults : Bool)
    (clock clock' : Clock) (settings settings' : Settings) (ready ready' : Except Error Unit)
    (outcome outcome' : Config → Request → Except Error Response) {request request' : Request}
    (hmethod : request.method = request'.method) (hurl : request.url = request'.url)
    (houtcome : Alike (outcome settings.config request) (outcome' settings'.config request')) :
    let trace := (callWith settings ready outcome clock layers defaults request).trace
    let trace' := (callWith settings' ready' outcome' clock' layers' defaults request').trace
    trace.untimed = trace'.untimed ∧
      (SameTimes clock clock' layers layers' defaults request request' ↔ trace = trace') := by
  intro trace trace'
  have hspan : Span.of request = Span.of request' := by
    unfold Span.of
    rw [hmethod, hurl]
  have hruns : ((Service.answering ready (outcome settings.config)).call request).Alike
      ((Service.answering ready' (outcome' settings'.config)).call request') := ⟨houtcome, rfl⟩
  have huntimed : trace.untimed = trace'.untimed :=
    (build_alike (fun config => .answering ready (outcome config))
      (fun config => .answering ready' (outcome' config)) clock clock' hlayers defaults hspan
      hruns).2
  -- the times are all that is left to tell the traces apart
  have htimes := callWith_times settings ready outcome clock layers defaults request
  have htimes' := callWith_times settings' ready' outcome' clock' layers' defaults request'
  refine ⟨huntimed, ?_, ?_⟩
  · intro hsame
    exact Trace.ext_times huntimed (htimes.trans (hsame.trans htimes'.symm))
  · intro heq
    exact htimes.symm.trans ((congrArg Trace.times heq).trans htimes')

/-- Two requests for one URL that differ in headers and body, answered by two error responses that
    differ in their headers and send one payload in other pieces.  Where as many milliseconds are
    measured the traces are the same; one millisecond more tells them apart, and no more than that. -/
theorem summaries_confidential_secrets :
    let url : Url := ⟨"http", "", "", some (.name "h"), none, .segments [""], none, none⟩
    let request : Request := .new .post url
    let request' := (request.header "Authorization" "secret").withBody [0x70, 0x77]
    let response : Response := ⟨401, .empty, .full [0x6E, 0x6F]⟩
    let response' : Response :=
      ⟨401, .ofList [("Set-Cookie", "secret")], .stream [.ok [0x6E], .ok [0x6F]]⟩
    let layers (outer : Nat) : List Middleware :=
      [.mapping ⟨.uaa⟩, .logging (.summary fun _ => ⟨outer⟩)]
    let trace := (callWith .none (.ok ()) (fun _ _ => .ok response) (fun _ => ⟨1000000⟩)
      (layers 2000000) true request).trace
    let trace' (outer : Nat) := (callWith .none (.ok ()) (fun _ _ => .ok response')
      (fun _ => ⟨1999999⟩) (layers outer) true request').trace
    request.headers ≠ request'.headers ∧ request.body ≠ request'.body ∧
      trace = trace' 2999999 ∧ trace ≠ trace' 3000000 ∧
      trace.untimed = (trace' 3000000).untimed := by
  intro url request request' response response' layers trace trace'
  have hlayers : ∀ outer, List.Forall₂ Middleware.SameSummary (layers 2000000) (layers outer) :=
    fun outer => .cons (.mapping _) (.cons (.logging _ _) .nil)
  have hcalls : ∀ outer, trace.untimed = (trace' outer).untimed ∧
      (SameTimes (fun _ => ⟨1000000⟩) (fun _ => ⟨1999999⟩) (layers 2000000) (layers outer) true
        request request' ↔ trace = trace' outer) := fun outer =>
    summaries_confidential (hlayers outer) true _ _ .none .none (.ok ()) (.ok ())
      (fun _ _ => .ok _) (fun _ _ => .ok _) rfl rfl (.response rfl fun _ => rfl)
  refine ⟨by decide, by decide, (hcalls 2999999).2.mp (by unfold SameTimes; decide +kernel), ?_,
    (hcalls 3000000).1⟩
  intro heq
  have hsame := (hcalls 3000000).2.mpr heq
  unfold SameTimes at hsame
  revert hsame
  decide +kernel

/-- A layer for debugging tells the headers. -/
example :
    let url : Url := ⟨"http", "", "", some (.name "h"), none, .segments [""], none, none⟩
    let request : Request := .new .get url
    let response : Response := ⟨200, .empty, .empty⟩
    let call := callWith .none (.ok ()) (fun _ _ => .ok response) .stopped
      [.logging ⟨.headers, .stopped⟩] false
    (call request).trace ≠ (call (request.header "Authorization" "secret")).trace := by
  decide +kernel

end Builder

end PlatformClient
