/-
  What a call reports, and where.

  A logging layer is a pair of brackets: it reports that a request goes out, puts a span around all
  that the call inside it reports, and reports how that call ended.  A mapper adds what it makes of
  a response.

  1. **Idle layers.**  Where no mapper has anything to do, layers leave the result as it is and put
     their brackets around the trace (`behind_idle`): by induction on the layers, from the inside
     out.
  2. **The first mapper** stands between idle layers.  Inside it there is no mapper at all; outside
     it no error response comes through, as it settles the service.
  3. **Stages.**  Each event tells of one stage of a call.  The entries of a stage are told from the
     whole trace, part by part.
-/
import PlatformClient.Proofs.Layers
import PlatformClient.Transport.Exchange

namespace PlatformClient

/-! ## Stages -/

/-- What part of a call an event tells of. -/
inductive Stage where
  /-- A request goes out. -/
  | sending
  /-- A call has ended. -/
  | ending
  /-- A payload is classified as unknown. -/
  | doubt
  /-- A mapper has made a failure. -/
  | warning
  deriving DecidableEq

def Event.stage : Event → Stage
  | .sending _ => .sending
  | .completed .. | .httpError .. | .apiError .. | .failed .. => .ending
  | .unmatched .. => .doubt
  | .mapped .. => .warning

namespace Stage

/-- The entries of a trace that tell of a stage, in order. -/
def entries (k : Stage) (trace : Trace) : Trace := trace.filter fun e => e.event.stage = k

theorem entries_append (k : Stage) (t u : Trace) :
    k.entries (t ++ u) = k.entries t ++ k.entries u := List.filter_append t u

/-- The entries of a stage are picked by their events. -/
theorem mem_entries {k : Stage} {t : Trace} {e : Entry} :
    e ∈ k.entries t ↔ e ∈ t ∧ e.event.stage = k := by
  simp [entries]

/-- Entries of one stage are all that this stage tells. -/
theorem entries_same {k : Stage} {t : Trace} (h : ∀ e ∈ t, e.event.stage = k) :
    k.entries t = t := by
  simpa [entries] using h

/-- They tell nothing of another stage. -/
theorem entries_other {k k' : Stage} {t : Trace} (h : ∀ e ∈ t, e.event.stage = k)
    (hne : k ≠ k') : k'.entries t = [] := by
  rw [entries, List.filter_eq_nil_iff]
  intro e he
  rw [h e he, decide_eq_true_eq]
  exact hne

end Stage

/-- However a call ended, its event tells of the end. -/
theorem Logger.finish_stage (l : Logger) (request : Request) (result : Except Error Response) :
    (l.finish request result).stage = .ending := by
  unfold Logger.finish Detail.completion
  split
  · split <;> rfl
  · rfl
  · rfl

/-! ## Spans -/

namespace Entry

/-- The same entry, seen from outside as many spans. -/
def nested (span : Span) (depth : Nat) (e : Entry) : Entry :=
  { e with spans := List.replicate depth span ++ e.spans }

/-- Spans from outside add up. -/
theorem nested_nested (span : Span) (m n : Nat) (e : Entry) :
    (e.nested span m).nested span n = e.nested span (m + n) := by
  unfold nested
  dsimp only
  rw [← List.append_assoc, List.replicate_append_replicate, Nat.add_comm n m]

/-- One span inside and some outside are one more outside, since they are the same span. -/
theorem nested_inside (span : Span) (n : Nat) (e : Entry) :
    (e.inside span).nested span n = e.nested span (n + 1) := by
  rw [Nat.add_comm n 1]
  exact nested_nested span 1 n e

/-- So it is for a whole trace. -/
theorem map_nested_inside (span : Span) (n : Nat) (t : Trace) :
    (t.map (inside span)).map (nested span n) = t.map (nested span (n + 1)) := by
  rw [List.map_map]
  exact List.map_congr_left fun e _ => nested_inside span n e

end Entry

/-- Which entries tell of a stage does not depend on their spans. -/
theorem Stage.entries_nested (k : Stage) (span : Span) (n : Nat) (t : Trace) :
    k.entries (t.map (Entry.nested span n)) = (k.entries t).map (Entry.nested span n) :=
  List.filter_map

/-- The event in as many spans. -/
def Event.within (event : Event) (span : Span) (depth : Nat) : Entry :=
  ⟨event, List.replicate depth span⟩

theorem Event.nested_mk (event : Event) (span : Span) (n : Nat) :
    (⟨event, []⟩ : Entry).nested span n = event.within span n := by
  rw [Entry.nested, List.append_nil]
  rfl

theorem Event.nested_within (event : Event) (span : Span) (m n : Nat) :
    (event.within span m).nested span n = event.within span (m + n) := by
  unfold within Entry.nested
  rw [List.replicate_append_replicate, Nat.add_comm n m]

/-! ## Brackets -/

/-- What logging layers report of a request that goes out: the outermost layer first, and each in
    one span more. -/
def sendings (request : Request) (ls : List Logger) : Trace :=
  ls.reverse.mapIdx fun i l => (l.start request).within (Span.of request) (i + 1)

/-- What logging layers report of how a call ended: the innermost layer first, in all the spans, and
    each further one in a span less.  Each tells the time that it measured itself. -/
def endings (request : Request) (result : Except Error Response) (depth : Nat)
    (ls : List Logger) : Trace :=
  ls.mapIdx fun i l => (l.finish request result).within (Span.of request) (depth - i)

section Brackets

variable (request : Request) (result : Except Error Response)

/-- An innermost layer more sends last, one span deeper than the others. -/
theorem sendings_cons (l : Logger) (ls : List Logger) :
    sendings request (l :: ls) =
      sendings request ls ++ [(l.start request).within (Span.of request) (ls.length + 1)] := by
  rw [sendings, List.reverse_cons, List.mapIdx_concat, List.length_reverse]
  rfl

/-- An innermost layer more ends first, in all the spans; the others keep to theirs. -/
theorem endings_cons (depth : Nat) (l : Logger) (ls : List Logger) :
    endings request result (depth + 1) (l :: ls) =
      (l.finish request result).within (Span.of request) (depth + 1) ::
        endings request result depth ls := by
  rw [endings, List.mapIdx_cons]
  simp only [Nat.add_sub_add_right]
  rfl

/-- Inner layers send inside the spans of outer ones. -/
theorem sendings_append (inner outer : List Logger) :
    sendings request (inner ++ outer) = sendings request outer ++
      (sendings request inner).map (Entry.nested (Span.of request) outer.length) := by
  induction inner with
  | nil => exact (List.append_nil _).symm
  | cons l inner ih =>
    rw [List.cons_append, sendings_cons, sendings_cons, ih, List.map_append, List.append_assoc,
      List.map_cons, Event.nested_within, List.length_append, Nat.add_right_comm]
    rfl

/-- Endings inside further spans are endings that start deeper. -/
theorem endings_nested (n : Nat) {depth : Nat} {ls : List Logger} (h : ls.length ≤ depth) :
    (endings request result depth ls).map (Entry.nested (Span.of request) n) =
      endings request result (depth + n) ls := by
  induction ls generalizing depth with
  | nil => rfl
  | cons l ls ih =>
    obtain ⟨depth, rfl⟩ : ∃ k, depth = k + 1 := ⟨depth - 1, by rw [List.length_cons] at h; omega⟩
    have hls : ls.length ≤ depth := by
      rw [List.length_cons] at h
      omega
    rw [endings_cons, List.map_cons, ih hls, Event.nested_within, Nat.add_right_comm, endings_cons]

/-- Every layer sends once. -/
theorem length_sendings (ls : List Logger) : (sendings request ls).length = ls.length := by
  simp [sendings]

/-- Every layer ends once. -/
theorem length_endings (depth : Nat) (ls : List Logger) :
    (endings request result depth ls).length = ls.length := List.length_mapIdx

/-- The first entries of a call are its requests going out, one per logger. -/
theorem sendings_stage (ls : List Logger) :
    ∀ e ∈ sendings request ls, e.event.stage = .sending := by
  intro e he
  obtain ⟨i, hi, rfl⟩ := List.mem_mapIdx.mp he
  rfl

/-- Each ending is that of one of the layers. -/
theorem endings_event {depth : Nat} {ls : List Logger} {e : Entry}
    (h : e ∈ endings request result depth ls) : ∃ l ∈ ls, e.event = l.finish request result := by
  obtain ⟨i, hi, rfl⟩ := List.mem_mapIdx.mp h
  exact ⟨ls[i], List.getElem_mem hi, rfl⟩

/-- Endings tell of the end, whatever the result is. -/
theorem endings_stage (depth : Nat) (ls : List Logger) :
    ∀ e ∈ endings request result depth ls, e.event.stage = .ending := by
  intro e he
  obtain ⟨l, -, hl⟩ := endings_event request result he
  rw [hl]
  exact l.finish_stage request result

/-- The spans of entries that go one deeper each. -/
def ladder (span : Span) : Nat → List (List Span)
  | 0 => []
  | n + 1 => ladder span n ++ [List.replicate (n + 1) span]

/-- Sendings climb the ladder from its foot. -/
theorem sendings_spans (ls : List Logger) :
    (sendings request ls).map Entry.spans = ladder (Span.of request) ls.length := by
  induction ls with
  | nil => rfl
  | cons l ls ih =>
    rw [sendings_cons, List.map_append, ih]
    rfl

/-- Endings go down from where they start, and leave the rest to layers further out. -/
theorem endings_spans (n : Nat) (ls : List Logger) :
    (endings request result (ls.length + n) ls).map Entry.spans ++
        (ladder (Span.of request) n).reverse =
      (ladder (Span.of request) (ls.length + n)).reverse := by
  induction ls with
  | nil =>
    rw [List.length_nil, Nat.zero_add]
    rfl
  | cons l ls ih =>
    rw [List.length_cons, Nat.add_right_comm, endings_cons, List.map_cons, List.cons_append, ih,
      ladder, List.reverse_append]
    rfl

end Brackets

/-! ## Layers around a service -/

namespace Layer

/-- A logging layer is a pair of brackets around what happens inside it. -/
theorem logging_trace (l : Logger) (s : Service) (request : Request) :
    ((logging l s).call request).trace =
      (l.start request).within (Span.of request) 1 ::
        ((s.call request).trace.map (Entry.inside (Span.of request)) ++
          [(l.finish request (s.call request).result).within (Span.of request) 1]) := by
  show List.map _ (_ :: ((s.call request).trace ++ [_])) = _
  rw [List.map_cons, List.map_append]
  rfl

end Layer

/-- What a mapper reports of a response. -/
def Mapper.reports (m : Mapper) (r : Response) : Trace := ((m.map r).reportEnd m.event).trace

/-- What a mapper, if there is one, reports of an outcome: nothing but of a response. -/
def mapperReports : Option Mapper → Except Error Response → Trace
  | some m, .ok r => m.reports r
  | _, _ => []

/-- What a mapping layer adds to a trace comes behind everything inside it. -/
theorem Layer.mapping_trace (m : Mapper) (s : Service) (request : Request) :
    ((mapping m s).call request).trace =
      (s.call request).trace ++ mapperReports (some m) (s.call request).result := by
  show ((s.call request).bind fun r => (m.map r).reportEnd m.event).trace = _
  unfold Run.bind
  cases (s.call request).result with
  | error e => exact (List.append_nil _).symm
  | ok r => rfl

/-- Of a response without error a mapper reports nothing. -/
theorem Mapper.reports_of_lt {m : Mapper} {r : Response} (h : r.status < 400) :
    m.reports r = [] := by
  rw [reports, map_of_lt h]
  rfl

/-- No mapper among the layers has anything to do with the result. -/
def Idle (layers : List Middleware) (result : Except Error Response) : Prop :=
  ∀ m, .mapping m ∈ layers → ∀ r, result = .ok r → r.status < 400

/-- Where a stack is idle, the layers without its innermost one are, too. -/
theorem Idle.tail {l : Middleware} {layers : List Middleware} {result : Except Error Response}
    (h : Idle (l :: layers) result) : Idle layers result :=
  fun m hm => h m (List.mem_cons_of_mem l hm)

namespace Service

theorem behind_cons (s : Service) (l : Middleware) (layers : List Middleware) :
    s.behind ((l :: layers).map Middleware.layer) =
      (l.layer s).behind (layers.map Middleware.layer) := rfl

/-- Layers can be put around a service in two goes. -/
theorem behind_append (s : Service) (layers layers' : List Middleware) :
    s.behind ((layers ++ layers').map Middleware.layer) =
      (s.behind (layers.map Middleware.layer)).behind (layers'.map Middleware.layer) := by
  rw [List.map_append]
  exact List.foldl_append

/-- Idle layers leave a result as it is, and put their brackets around a trace. -/
theorem behind_idle (layers : List Middleware) (s : Service) (request : Request)
    (h : Idle layers (s.call request).result) :
    ((s.behind (layers.map Middleware.layer)).call request).result = (s.call request).result ∧
      ((s.behind (layers.map Middleware.layer)).call request).trace =
        sendings request (logged layers) ++
          ((s.call request).trace.map (Entry.nested (Span.of request) (logged layers).length) ++
            endings request (s.call request).result (logged layers).length
              (logged layers)) := by
  induction layers generalizing s with
  | nil =>
    refine ⟨rfl, ?_⟩
    show (s.call request).trace = [] ++ (List.map (fun e => e) (s.call request).trace ++ [])
    rw [List.map_id', List.append_nil, List.nil_append]
  | cons l layers ih =>
    rw [behind_cons]
    have hresult : ((l.layer s).call request).result = (s.call request).result := by
      cases l with
      | mapping m =>
        show ((Layer.mapping m s).call request).result = _
        rw [Layer.mapping_call_of_lt (h m List.mem_cons_self)]
      | logging l => exact (Layer.logging_agrees l s request).1
    have h' : Idle layers ((l.layer s).call request).result := by
      rw [hresult]
      exact h.tail
    obtain ⟨hr, ht⟩ := ih (l.layer s) h'
    rw [hresult] at hr ht
    refine ⟨hr, ht.trans ?_⟩
    cases l with
    | mapping m =>
      -- the mapper reports nothing
      show _ ++ (((Layer.mapping m s).call request).trace.map _ ++ _) = _
      rw [Layer.mapping_call_of_lt (h m List.mem_cons_self)]
      rfl
    | logging l =>
      -- the layer's own brackets are the innermost: next to what was there before
      have hlogged : logged (.logging l :: layers) = l :: logged layers := rfl
      show _ ++ (((Layer.logging l s).call request).trace.map _ ++ _) = _
      rw [Layer.logging_trace, hlogged, List.length_cons, sendings_cons, endings_cons,
        List.map_cons, List.map_append, Entry.map_nested_inside, Event.nested_within,
        List.map_cons, Event.nested_within, Nat.add_comm 1]
      simp only [List.map_nil, List.append_assoc, List.cons_append, List.nil_append]

end Service

/-! ## The first mapper -/

/-- The layers inside the first mapper: all of them, if there is no mapper. -/
def insideFirst (layers : List Middleware) : List Middleware :=
  layers.takeWhile fun l => l.mapper?.isNone

/-- The layers outside the first mapper: none, if there is no mapper. -/
def outsideFirst (layers : List Middleware) : List Middleware :=
  (layers.dropWhile fun l => l.mapper?.isNone).tail

/-- Inside the first mapper there is no mapper. -/
theorem not_mem_insideFirst (m : Mapper) (layers : List Middleware) :
    .mapping m ∉ insideFirst layers := by
  intro h
  have hall : (insideFirst layers).all (fun l => l.mapper?.isNone) = true := List.all_takeWhile
  have hnone : (Middleware.mapping m).mapper?.isNone = true := List.all_eq_true.mp hall _ h
  cases hnone

/-- The first mapper, if there is one, cuts the layers in two; without one all are inside. -/
theorem split_first (layers : List Middleware) :
    layers = insideFirst layers ++
        ((firstMapper layers).toList.map .mapping ++ outsideFirst layers) ∧
      (firstMapper layers = none → outsideFirst layers = []) := by
  induction layers with
  | nil => exact ⟨rfl, fun _ => rfl⟩
  | cons l layers ih =>
    cases l with
    | mapping m => exact ⟨rfl, fun h => nomatch h⟩
    | logging l => exact ⟨congrArg (Middleware.logging l :: ·) ih.1, ih.2⟩

theorem logged_append (layers layers' : List Middleware) :
    logged (layers ++ layers') = logged layers ++ logged layers' := List.filterMap_append

/-- A mapper does not log. -/
theorem logged_split (layers : List Middleware) :
    logged layers = logged (insideFirst layers) ++ logged (outsideFirst layers) := by
  have hmapper : ∀ m? : Option Mapper, logged (m?.toList.map .mapping) = [] := by
    intro m?
    cases m? <;> rfl
  conv_lhs => rw [(split_first layers).1]
  rw [logged_append, logged_append, hmapper, List.nil_append]

/-- What the first mapper reports of an outcome, in the spans of the layers outside it. -/
def mapperPart (layers : List Middleware) (request : Request) (outcome : Except Error Response) :
    Trace :=
  (mapperReports (firstMapper layers) outcome).map
    (Entry.nested (Span.of request) (logged (outsideFirst layers)).length)

/-- What a call reports: its layers send; those inside the first mapper end with the outcome; the
    mapper reports; and those outside it end with what the mapper made of the outcome. -/
def callTrace (layers : List Middleware) (request : Request) (outcome : Except Error Response) :
    Trace :=
  sendings request (logged layers) ++
    (endings request outcome (logged layers).length (logged (insideFirst layers)) ++
      (mapperPart layers request outcome ++
        endings request (mapOutcome outcome (firstMapper layers)).result
          (logged (outsideFirst layers)).length (logged (outsideFirst layers))))

namespace Service

/-- With at most one mapper around a service, the trace is followed by its reports. -/
theorem mappedBy_trace (m? : Option Mapper) (s : Service) (request : Request) :
    ((s.mappedBy m?).call request).trace =
      (s.call request).trace ++ mapperReports m? (s.call request).result := by
  cases m? with
  | none => exact (List.append_nil _).symm
  | some m => exact Layer.mapping_trace m s request

/-- The first mapper stands between the layers inside it and those outside. -/
theorem behind_split (layers : List Middleware) (s : Service) :
    s.behind (layers.map Middleware.layer) =
      ((s.behind ((insideFirst layers).map Middleware.layer)).mappedBy
        (firstMapper layers)).behind ((outsideFirst layers).map Middleware.layer) := by
  have hmapped : ∀ (m? : Option Mapper) (t : Service),
      t.behind ((m?.toList.map .mapping).map Middleware.layer) = t.mappedBy m? := by
    intro m? t
    cases m? with
    | none => rfl
    | some m => rfl
  conv_lhs => rw [(split_first layers).1]
  rw [behind_append, behind_append, hmapped]

/-- Outside the first mapper there is nothing left to map. -/
theorem outside_idle (layers : List Middleware) (s : Service) (request : Request) :
    Idle (outsideFirst layers) ((s.mappedBy (firstMapper layers)).call request).result := by
  cases h : firstMapper layers with
  | none =>
    intro m hm
    rw [(split_first layers).2 h] at hm
    cases hm
  | some m => exact fun _ _ => Layer.settled_mapping m s request

/-- The trace of a call is told by where the first mapper stands among the layers. -/
theorem behind_trace (layers : List Middleware) (s : Service) (request : Request)
    (hquiet : (s.call request).trace = []) :
    ((s.behind (layers.map Middleware.layer)).call request).trace =
      callTrace layers request (s.call request).result := by
  -- inside the first mapper: brackets around nothing
  have hinner : Idle (insideFirst layers) (s.call request).result :=
    fun m hm => absurd hm (not_mem_insideFirst m layers)
  obtain ⟨hr, ht⟩ := s.behind_idle (insideFirst layers) request hinner
  -- the mapper itself
  have hr' := (mappedBy_call (s.behind ((insideFirst layers).map Middleware.layer))
    (firstMapper layers) request).1
  have ht' := mappedBy_trace (firstMapper layers)
    (s.behind ((insideFirst layers).map Middleware.layer)) request
  -- outside it: brackets around all of this
  obtain ⟨-, ht''⟩ := behind_idle (outsideFirst layers) _ request (outside_idle layers
    (s.behind ((insideFirst layers).map Middleware.layer)) request)
  rw [behind_split, ht'', hr', ht', hr, ht, hquiet, callTrace, mapperPart, logged_split layers]
  simp only [List.map_append, List.map_nil, List.nil_append, List.append_assoc, sendings_append,
    endings_nested _ _ _ (Nat.le_refl _), List.length_append]

end Service

/-! ## What a mapper reports -/

/-- The classification of a payload is unknown just if the payload is no envelope, for a reason. -/
theorem classify_eq_unknown_iff {schema : Schema} {status : Nat} {payload : Bytes} :
    (∃ text, classify schema status payload = .unknown status text) ↔
      ∃ reason, Envelope.decode schema payload = .error reason := by
  unfold classify
  cases Envelope.decode schema payload with
  | ok e => simp
  | error reason => simp

namespace Mapper

/-- The mapper reads the response, and classifies it as unknown for this reason. -/
def Doubts (m : Mapper) (r : Response) (reason : DecodeError) : Prop :=
  400 ≤ r.status ∧ ∃ payload, r.body.collect = .ok payload ∧
    Envelope.decode m.schema payload = .error reason

/-- A payload is no envelope for one reason only. -/
theorem Doubts.unique {m : Mapper} {r : Response} {reason reason' : DecodeError}
    (h : m.Doubts r reason) (h' : m.Doubts r reason') : reason = reason' := by
  obtain ⟨-, payload, hbody, hreason⟩ := h
  obtain ⟨-, payload', hbody', hreason'⟩ := h'
  rw [hbody] at hbody'
  cases hbody'
  rw [hreason] at hreason'
  cases hreason'
  rfl

/-- There is a reason just if the response was read and classified as unknown. -/
theorem exists_doubts_iff {m : Mapper} {r : Response} :
    (∃ reason, m.Doubts r reason) ↔ ∃ payload text, 400 ≤ r.status ∧
      r.body.collect = .ok payload ∧ classify m.schema r.status payload = .unknown r.status text := by
  constructor
  · rintro ⟨reason, hstatus, payload, hbody, hreason⟩
    obtain ⟨text, htext⟩ := classify_eq_unknown_iff.mpr ⟨reason, hreason⟩
    exact ⟨payload, text, hstatus, hbody, htext⟩
  · rintro ⟨payload, text, hstatus, hbody, htext⟩
    obtain ⟨reason, hreason⟩ := classify_eq_unknown_iff.mp ⟨text, htext⟩
    exact ⟨reason, hstatus, payload, hbody, hreason⟩

/-- What may be reported of a response. -/
inductive Reports (m : Mapper) (r : Response) : Trace → Prop
  /-- No failure is made. -/
  | none (h : ∀ f, (m.map r).result ≠ .error (.api f)) (hno : ∀ reason, ¬m.Doubts r reason) :
      Reports m r []
  /-- A failure is made, from an envelope or by the body itself. -/
  | failure {f : Failure} (h : (m.map r).result = .error (.api f))
      (hno : ∀ reason, ¬m.Doubts r reason) : Reports m r [⟨.mapped m.schema f, []⟩]
  /-- A failure is made of a payload that is no envelope. -/
  | doubt {f : Failure} {reason : DecodeError} (h : (m.map r).result = .error (.api f))
      (hdoubts : m.Doubts r reason) :
      Reports m r [⟨.unmatched m.schema r.status reason, []⟩, ⟨.mapped m.schema f, []⟩]

/-- What a mapper does report of a response is one of the three. -/
theorem reports_of (m : Mapper) (r : Response) : m.Reports r (m.reports r) := by
  rcases Nat.lt_or_ge r.status 400 with hlt | hle
  · rw [reports_of_lt hlt]
    refine .none ?_ ?_
    · intro f hf
      rw [map_of_lt hlt] at hf
      cases hf
    · intro reason hdoubts
      have hstatus := hdoubts.1
      omega
  · -- the response is read, and what comes of its body decides
    have hmap := map_of_le (m := m) hle
    unfold reports
    cases hbody : r.body.collect with
    | error e =>
      have hno : ∀ reason, ¬m.Doubts r reason := by
        rintro reason ⟨-, payload, hpayload, -⟩
        rw [hbody] at hpayload
        cases hpayload
      rw [hbody] at hmap
      dsimp only at hmap
      rw [hmap]
      cases e with
      | api f => exact .failure (congrArg Run.result hmap) hno
      | _ =>
        refine .none ?_ hno
        intro f hf
        rw [hmap] at hf
        cases hf
    | ok payload =>
      rw [hbody] at hmap
      dsimp only at hmap
      have hresult := congrArg Run.result hmap
      rw [hmap, classifyReport]
      cases hdecode : Envelope.decode m.schema payload with
      | ok envelope =>
        refine .failure hresult ?_
        rintro reason ⟨-, payload', hpayload', hreason⟩
        rw [hbody] at hpayload'
        cases hpayload'
        rw [hdecode] at hreason
        cases hreason
      | error reason => exact .doubt hresult ⟨hle, payload, hbody, hdecode⟩

variable {m : Mapper} {r : Response} {t : Trace}

/-- The warning is that of the failure, and there is none without a failure. -/
theorem Reports.mem_warnings (h : m.Reports r t) {e : Entry} :
    e ∈ Stage.warning.entries t ↔
      ∃ f, (m.map r).result = .error (.api f) ∧ e = ⟨.mapped m.schema f, []⟩ := by
  -- where there is a failure, its warning is the only one
  have hone : ∀ f, (m.map r).result = .error (.api f) →
      (e ∈ [(⟨.mapped m.schema f, []⟩ : Entry)] ↔
        ∃ f, (m.map r).result = .error (.api f) ∧ e = ⟨.mapped m.schema f, []⟩) := by
    intro f hf
    rw [List.mem_singleton]
    refine ⟨fun he => ⟨f, hf, he⟩, ?_⟩
    rintro ⟨f', hf', rfl⟩
    rw [hf] at hf'
    cases hf'
    rfl
  cases h with
  | none h _ =>
    constructor
    · intro he
      cases he
    · rintro ⟨f, hf, -⟩
      exact absurd hf (h f)
  | failure h _ => exact hone _ h
  | doubt h _ => exact hone _ h

/-- The doubt is that of the reason, and there is none without a reason. -/
theorem Reports.mem_doubts (h : m.Reports r t) {e : Entry} :
    e ∈ Stage.doubt.entries t ↔
      ∃ reason, m.Doubts r reason ∧ e = ⟨.unmatched m.schema r.status reason, []⟩ := by
  have hnone : (∀ reason, ¬m.Doubts r reason) → (e ∈ ([] : Trace) ↔
      ∃ reason, m.Doubts r reason ∧ e = ⟨.unmatched m.schema r.status reason, []⟩) := by
    intro hno
    constructor
    · intro he
      cases he
    · rintro ⟨reason, hdoubts, -⟩
      exact absurd hdoubts (hno reason)
  cases h with
  | none _ hno => exact hnone hno
  | failure _ hno => exact hnone hno
  | doubt _ hdoubts =>
    show e ∈ [_] ↔ _
    rw [List.mem_singleton]
    refine ⟨fun he => ⟨_, hdoubts, he⟩, ?_⟩
    rintro ⟨reason, hdoubts', rfl⟩
    rw [hdoubts.unique hdoubts']

/-- A mapper warns of one failure at most. -/
theorem Reports.warned_once (h : m.Reports r t) : (Stage.warning.entries t).length ≤ 1 := by
  cases h with
  | none => exact Nat.zero_le 1
  | failure => exact Nat.le_refl 1
  | doubt => exact Nat.le_refl 1

/-- A mapper tells of doubts and warnings only: it neither sends nor ends. -/
theorem Reports.stage (h : m.Reports r t) :
    ∀ e ∈ t, e.event.stage = .doubt ∨ e.event.stage = .warning := by
  cases h with
  | none => simp
  | failure => simp [Event.stage]
  | doubt => simp [Event.stage]

end Mapper

/-! ## Whole calls -/

/-- Every doubt is followed at once by a warning in the same spans. -/
def Answered : Trace → Prop
  | [] => True
  | e :: rest =>
    (e.event.stage = .doubt →
      ∃ w, rest.head? = some w ∧ w.event.stage = .warning ∧ w.spans = e.spans) ∧ Answered rest

/-- A doubt is followed by its warning in the same part, so parts can be put together. -/
theorem Answered.append {t u : Trace} (ht : Answered t) (hu : Answered u) : Answered (t ++ u) := by
  induction t with
  | nil => exact hu
  | cons e t ih =>
    refine ⟨?_, ih ht.2⟩
    intro he
    obtain ⟨w, hw, hrest⟩ := ht.1 he
    refine ⟨w, ?_, hrest⟩
    show (t ++ u).head? = some w
    rw [List.head?_append, hw]
    rfl

/-- Where nothing tells of doubts nothing has to follow. -/
theorem answered_of_stage {t : Trace} {k : Stage} (hk : k ≠ .doubt)
    (h : ∀ e ∈ t, e.event.stage = k) : Answered t := by
  induction t with
  | nil => trivial
  | cons e t ih =>
    refine ⟨?_, ih fun e' he' => h e' (List.mem_cons_of_mem e he')⟩
    intro he
    rw [h e List.mem_cons_self] at he
    exact absurd he hk

/-- The reports of a mapper are answered, in whatever spans. -/
theorem Mapper.Reports.answered {m : Mapper} {r : Response} {t : Trace} (h : m.Reports r t)
    (span : Span) (n : Nat) : Answered (t.map (Entry.nested span n)) := by
  cases h with
  | none => trivial
  | failure => exact ⟨fun he => (nomatch he), trivial⟩
  | doubt => exact ⟨fun _ => ⟨_, rfl, rfl, rfl⟩, fun he => (nomatch he), trivial⟩

/-- The shape of what a call with these layers reports, for an outcome of its transport. -/
structure Bracketed (layers : List Middleware) (request : Request)
    (outcome : Except Error Response) (trace : Trace) : Prop where
  /-- All of it, in order. -/
  whole : trace = callTrace layers request outcome
  /-- Every layer that logs sends once and ends once. -/
  counts : (Stage.sending.entries trace).length = (logged layers).length ∧
    (Stage.ending.entries trace).length = (logged layers).length
  /-- Sendings come before all else, the outermost first, and each in one span more. -/
  sent : Stage.sending.entries trace = trace.take (logged layers).length ∧
    Stage.sending.entries trace = sendings request (logged layers)
  /-- Endings come in the opposite order. -/
  ended : Stage.ending.entries trace =
    endings request outcome (logged layers).length (logged (insideFirst layers)) ++
      endings request (mapOutcome outcome (firstMapper layers)).result
        (logged (outsideFirst layers)).length (logged (outsideFirst layers))
  /-- Inside the first mapper an error response is reported as one. -/
  raw : ∀ r, outcome = .ok r → 400 ≤ r.status →
    ∀ e ∈ (Stage.ending.entries trace).take (logged (insideFirst layers)).length,
      ∃ elapsed, e.event = .httpError r.status elapsed
  /-- Outside it the failure is reported that the mapper made of the response. -/
  mapped : ∀ m r f, firstMapper layers = some m → outcome = .ok r →
    (m.map r).result = .error (.api f) →
    ∀ e ∈ (Stage.ending.entries trace).drop (logged (insideFirst layers)).length,
      ∃ elapsed, e.event = .apiError f elapsed
  /-- A layer's ending is in the spans of its sending. -/
  paired : (Stage.ending.entries trace).map Entry.spans =
    ((Stage.sending.entries trace).map Entry.spans).reverse
  /-- A warning is the first mapper's, of a response that it made a failure of, in the spans of the
      layers outside it. -/
  warned : ∀ e, e ∈ Stage.warning.entries trace ↔
    ∃ m r f, firstMapper layers = some m ∧ outcome = .ok r ∧
      (m.map r).result = .error (.api f) ∧
      e = (Event.mapped m.schema f).within (Span.of request) (logged (outsideFirst layers)).length
  /-- There is one warning at most. -/
  warned_once : (Stage.warning.entries trace).length ≤ 1
  /-- A doubt is the first mapper's, of a response that it classified as unknown, in the same
      spans. -/
  doubted : ∀ e, e ∈ Stage.doubt.entries trace ↔
    ∃ m r reason, firstMapper layers = some m ∧ outcome = .ok r ∧ m.Doubts r reason ∧
      e = (Event.unmatched m.schema r.status reason).within (Span.of request)
        (logged (outsideFirst layers)).length
  /-- So there is a doubt just if the first mapper classified the response as unknown. -/
  classified : (∃ e, e ∈ Stage.doubt.entries trace) ↔
    ∃ m r payload text, firstMapper layers = some m ∧ outcome = .ok r ∧ 400 ≤ r.status ∧
      r.body.collect = .ok payload ∧ classify m.schema r.status payload = .unknown r.status text
  /-- A warning comes right after each doubt. -/
  answered : Answered trace

section Parts

variable (layers : List Middleware) (request : Request) (outcome : Except Error Response)

/-- The mapper's part is told by the first mapper and by a response, as they are without spans. -/
theorem mem_mapperPart {k : Stage} {e : Entry} :
    e ∈ k.entries (mapperPart layers request outcome) ↔
      ∃ m r, firstMapper layers = some m ∧ outcome = .ok r ∧ ∃ e' ∈ k.entries (m.reports r),
        e = e'.nested (Span.of request) (logged (outsideFirst layers)).length := by
  rw [mapperPart, Stage.entries_nested, List.mem_map]
  constructor
  · rintro ⟨e', he', rfl⟩
    -- without a mapper, or without a response, there is nothing to tell
    cases hfirst : firstMapper layers with
    | none =>
      rw [hfirst] at he'
      cases he'
    | some m =>
      cases outcome with
      | error e =>
        rw [hfirst] at he'
        cases he'
      | ok r =>
        rw [hfirst] at he'
        exact ⟨m, r, rfl, rfl, e', he', rfl⟩
  · rintro ⟨m, r, hfirst, rfl, e', he', rfl⟩
    rw [hfirst]
    exact ⟨e', he', rfl⟩

/-- What a whole call tells of a stage is what its four parts tell of it. -/
theorem entries_callTrace (k : Stage) :
    k.entries (callTrace layers request outcome) =
      k.entries (sendings request (logged layers)) ++
        (k.entries (endings request outcome (logged layers).length
            (logged (insideFirst layers))) ++
          (k.entries (mapperPart layers request outcome) ++
            k.entries (endings request (mapOutcome outcome (firstMapper layers)).result
              (logged (outsideFirst layers)).length (logged (outsideFirst layers))))) := by
  rw [callTrace, Stage.entries_append, Stage.entries_append, Stage.entries_append]

/-- A mapper neither sends nor ends. -/
theorem mapperPart_other {k : Stage} (hdoubt : k ≠ .doubt) (hwarning : k ≠ .warning) :
    k.entries (mapperPart layers request outcome) = [] := by
  rw [List.eq_nil_iff_forall_not_mem]
  intro e he
  obtain ⟨m, r, -, -, e', he', -⟩ := (mem_mapperPart layers request outcome).mp he
  obtain ⟨hmem, rfl⟩ := Stage.mem_entries.mp he'
  rcases (m.reports_of r).stage e' hmem with h | h
  · exact hdoubt h
  · exact hwarning h

/-- Only the layers that log send. -/
theorem sending_entries : Stage.sending.entries (callTrace layers request outcome) =
    sendings request (logged layers) := by
  have hends : ∀ result depth ds,
      Stage.sending.entries (endings request result depth ds) = [] :=
    fun result depth ds => Stage.entries_other (endings_stage _ result depth ds) (by decide)
  rw [entries_callTrace, Stage.entries_same (sendings_stage _ _), hends, hends,
    mapperPart_other _ _ _ (by decide) (by decide)]
  simp only [List.append_nil]

/-- Only the layers that log end: first those inside the first mapper, with the outcome, then those
    outside it, with what the mapper made of it. -/
theorem ending_entries : Stage.ending.entries (callTrace layers request outcome) =
    endings request outcome (logged layers).length (logged (insideFirst layers)) ++
      endings request (mapOutcome outcome (firstMapper layers)).result
        (logged (outsideFirst layers)).length (logged (outsideFirst layers)) := by
  rw [entries_callTrace, Stage.entries_other (sendings_stage _ _) (by decide),
    Stage.entries_same (endings_stage _ _ _ _), Stage.entries_same (endings_stage _ _ _ _),
    mapperPart_other _ _ _ (by decide) (by decide), List.nil_append, List.nil_append]

/-- Doubts and warnings are the mapper's. -/
theorem mapper_entries {k : Stage} (hsending : k ≠ .sending) (hending : k ≠ .ending) :
    k.entries (callTrace layers request outcome) =
      k.entries (mapperPart layers request outcome) := by
  have hends : ∀ result depth ds,
      k.entries (endings request result depth ds) = [] :=
    fun result depth ds => Stage.entries_other (endings_stage _ result depth ds) hending.symm
  rw [entries_callTrace, Stage.entries_other (sendings_stage _ _) hsending.symm, hends, hends,
    List.nil_append, List.nil_append, List.append_nil]

/-- Endings come down the ladder that the sendings climbed. -/
theorem ending_spans : (Stage.ending.entries (callTrace layers request outcome)).map Entry.spans =
    ((Stage.sending.entries (callTrace layers request outcome)).map Entry.spans).reverse := by
  -- the inner layers end in the upper part of the ladder, the outer ones in the rest
  have houter := endings_spans request (mapOutcome outcome (firstMapper layers)).result 0
    (logged (outsideFirst layers))
  rw [Nat.add_zero, ladder, List.reverse_nil, List.append_nil] at houter
  rw [ending_entries, sending_entries, sendings_spans, List.map_append, houter,
    logged_split layers, List.length_append]
  exact endings_spans _ outcome _ _

/-- A warning in a call is the first mapper's, of the failure that it made of a response. -/
theorem mem_warning_entries {e : Entry} :
    e ∈ Stage.warning.entries (callTrace layers request outcome) ↔
      ∃ m r f, firstMapper layers = some m ∧ outcome = .ok r ∧
        (m.map r).result = .error (.api f) ∧
        e = (Event.mapped m.schema f).within (Span.of request)
          (logged (outsideFirst layers)).length := by
  rw [mapper_entries _ _ _ (by decide) (by decide), mem_mapperPart]
  constructor
  · rintro ⟨m, r, hfirst, hr, e', he', rfl⟩
    obtain ⟨f, hf, rfl⟩ := (m.reports_of r).mem_warnings.mp he'
    exact ⟨m, r, f, hfirst, hr, hf, Event.nested_mk _ _ _⟩
  · rintro ⟨m, r, f, hfirst, hr, hf, rfl⟩
    exact ⟨m, r, hfirst, hr, _, (m.reports_of r).mem_warnings.mpr ⟨f, hf, rfl⟩,
      (Event.nested_mk _ _ _).symm⟩

/-- A doubt in a call is the first mapper's, of a response that it classified as unknown. -/
theorem mem_doubt_entries {e : Entry} :
    e ∈ Stage.doubt.entries (callTrace layers request outcome) ↔
      ∃ m r reason, firstMapper layers = some m ∧ outcome = .ok r ∧ m.Doubts r reason ∧
        e = (Event.unmatched m.schema r.status reason).within (Span.of request)
          (logged (outsideFirst layers)).length := by
  rw [mapper_entries _ _ _ (by decide) (by decide), mem_mapperPart]
  constructor
  · rintro ⟨m, r, hfirst, hr, e', he', rfl⟩
    obtain ⟨reason, hdoubts, rfl⟩ := (m.reports_of r).mem_doubts.mp he'
    exact ⟨m, r, reason, hfirst, hr, hdoubts, Event.nested_mk _ _ _⟩
  · rintro ⟨m, r, reason, hfirst, hr, hdoubts, rfl⟩
    exact ⟨m, r, hfirst, hr, _, (m.reports_of r).mem_doubts.mpr ⟨reason, hdoubts, rfl⟩,
      (Event.nested_mk _ _ _).symm⟩

/-- No call warns twice. -/
theorem length_warning_entries :
    (Stage.warning.entries (callTrace layers request outcome)).length ≤ 1 := by
  rw [mapper_entries _ _ _ (by decide) (by decide), mapperPart, Stage.entries_nested,
    List.length_map]
  unfold mapperReports
  split
  · exact (Mapper.reports_of _ _).warned_once
  · exact Nat.zero_le 1

/-- In a whole call every doubt is followed by its warning, as only the mapper doubts. -/
theorem answered_callTrace : Answered (callTrace layers request outcome) := by
  have hmapper : Answered (mapperPart layers request outcome) := by
    unfold mapperPart mapperReports
    split
    · exact (Mapper.reports_of _ _).answered _ _
    · trivial
  have hends : ∀ result depth ds, Answered (endings request result depth ds) :=
    fun result depth ds => answered_of_stage (by decide) (endings_stage _ result depth ds)
  have hsends := answered_of_stage (by decide)
    (sendings_stage request (logged layers))
  exact hsends.append ((hends _ _ _).append (hmapper.append (hends _ _ _)))

/-- What a call reports has the shape that is claimed of it, part by part. -/
theorem bracketed_callTrace :
    Bracketed layers request outcome (callTrace layers request outcome) where
  whole := rfl
  counts := by
    rw [sending_entries, ending_entries, List.length_append, length_sendings, length_endings,
      length_endings, logged_split layers, List.length_append]
    exact ⟨rfl, rfl⟩
  -- the endings come behind the requests that go out, so each half is told by the lengths
  sent := by
    refine ⟨?_, sending_entries layers request outcome⟩
    have hlength := length_sendings request (logged layers)
    rw [sending_entries, callTrace, ← hlength, List.take_left']
    exact rfl
  ended := ending_entries layers request outcome
  raw r hr hstatus e he := by
    rw [ending_entries, List.take_left' (length_endings _ _ _ _)] at he
    obtain ⟨l, -, hl⟩ := endings_event _ _ he
    have herror : r.isError = true := by simpa [Response.isError] using hstatus
    rw [hl, hr, Logger.finish, Detail.completion, if_pos herror]
    exact ⟨_, rfl⟩
  mapped m r f hfirst hr hf e he := by
    rw [ending_entries, List.drop_left' (length_endings _ _ _ _)] at he
    obtain ⟨l, -, hl⟩ := endings_event _ _ he
    rw [hl, hfirst, hr, mapOutcome, Run.bind_of_ok, hf]
    exact ⟨_, rfl⟩
  paired := ending_spans layers request outcome
  warned _ := mem_warning_entries layers request outcome
  warned_once := length_warning_entries layers request outcome
  doubted _ := mem_doubt_entries layers request outcome
  classified := by
    constructor
    · rintro ⟨e, he⟩
      obtain ⟨m, r, reason, hfirst, hr, hdoubts, -⟩ :=
        (mem_doubt_entries layers request outcome).mp he
      obtain ⟨payload, text, hrest⟩ := Mapper.exists_doubts_iff.mp ⟨reason, hdoubts⟩
      exact ⟨m, r, payload, text, hfirst, hr, hrest⟩
    · rintro ⟨m, r, payload, text, hfirst, hr, hrest⟩
      obtain ⟨reason, hdoubts⟩ := Mapper.exists_doubts_iff.mpr ⟨payload, text, hrest⟩
      exact ⟨_, (mem_doubt_entries layers request outcome).mpr
        ⟨m, r, reason, hfirst, hr, hdoubts, rfl⟩⟩
  answered := answered_callTrace layers request outcome

end Parts

namespace Builder

/-- Of any transport that reports nothing itself, the trace of a call is well bracketed. -/
theorem build_bracketed (transport : Config → Service) (clock : Clock) (settings : Settings)
    (layers : List Middleware) (defaults : Bool) {request : Request}
    (hquiet : ((transport settings.config).call request).trace = []) :
    Bracketed (middlewares clock layers defaults) request
      ((transport settings.config).call request).result
      ((build transport clock ⟨settings, layers.map Middleware.layer, defaults⟩).service.call
        request).trace := by
  have htrace := (transport settings.config).behind_trace (middlewares clock layers defaults) request
    hquiet
  rw [← stack_eq clock settings] at htrace
  show Bracketed _ _ _
    (((transport settings.config).behind
      (stack clock ⟨settings, layers.map Middleware.layer, defaults⟩)).call request).trace
  rw [htrace]
  exact bracketed_callTrace _ request _

/-- So it is when requests are sent to a peer. -/
theorem transport_bracketed (peer : Peer) (clock : Clock) (settings : Settings)
    (layers : List Middleware) (defaults : Bool) (request : Request) :
    Bracketed (middlewares clock layers defaults) request
      ((Service.transport peer settings.config).call request).result
      ((build (Service.transport peer) clock
        ⟨settings, layers.map Middleware.layer, defaults⟩).service.call request).trace := by
  refine build_bracketed (Service.transport peer) clock settings layers defaults ?_
  show (Exchange.perform peer settings.config request).trace = []
  unfold Exchange.perform
  split
  · rfl
  · rfl

/-- The trace of a call is well bracketed, whatever its layers and the transport's outcome. -/
theorem trace_bracketed (settings : Settings) (ready : Except Error Unit)
    (outcome : Config → Request → Except Error Response) (clock : Clock)
    (layers : List Middleware) (defaults : Bool) (request : Request) :
    Bracketed (middlewares clock layers defaults) request (outcome settings.config request)
      (callWith settings ready outcome clock layers defaults request).trace :=
  build_bracketed (fun config => .answering ready (outcome config)) clock settings layers
    defaults rfl

/-- A mapper between two logging layers; the inner one measured two milliseconds, the outer one
    three. -/
example :
    let url : Url := ⟨"http", "", "", some (.name "h"), none, .segments [""], none, none⟩
    let span : Span := ⟨"GET", "http://h/"⟩
    let request := Request.new .get url
    let response : Response := ⟨404, .empty, .full []⟩
    let outer : Logger := .summary fun _ => ⟨3000000⟩
    (callWith .none (.ok ()) (fun _ _ => .ok response) (fun _ => ⟨2000000⟩)
        [.mapping ⟨.uaa⟩, .logging outer] true request).trace =
      [⟨.sending none, [span]⟩, ⟨.sending none, [span, span]⟩,
        ⟨.httpError 404 2, [span, span]⟩, ⟨.unmatched .uaa 404 .notAnObject, [span]⟩,
        ⟨.mapped .uaa (.unknown 404 ""), [span]⟩, ⟨.apiError (.unknown 404 "") 3, [span]⟩] := by
  decide +kernel

end Builder

end PlatformClient
