/-
  Bodies that are bounded.

  What is left of the bound goes down with each frame, so that a stream is told by its frames from
  the front on:

  1. **Passing frames** hold no loss and not more data than the bound allows.  They become chunks,
     and leave the rest of the bound to the frames behind them (`items_append`).
  2. **One of three.**  Either all frames pass, or the first that does not is too large, or it is a
     loss (`Stream.of`).  Each way there is one thing that reading comes to.
  3. **Layers.**  A mapper meets the bound only if it reads the body, that is, for an error status.
-/
import Mathlib.Data.List.Induction
import PlatformClient.Proofs.Layers
import PlatformClient.Transport.Exchange

namespace PlatformClient

/-! ## Bounds -/

/-- Without a bound everything is within it. -/
theorem isWithin_iff {bound : Option Nat} {n : Nat} :
    isWithin bound n = true ↔ ∀ limit, bound = some limit → n ≤ limit := by
  cases bound <;> simp [isWithin]

/-- A bound that allows a sum allows the second part once the first is taken from it. -/
theorem isWithin_add {bound : Option Nat} {m n : Nat} :
    isWithin bound (m + n) = true ↔
      isWithin bound m = true ∧ isWithin (bound.map (· - m)) n = true := by
  cases bound with
  | none => simp [isWithin]
  | some limit =>
    simp only [isWithin, Option.map_some, Option.all_some, decide_eq_true_eq]
    omega

namespace Frame

/-! ## Data -/

/-- What a frame adds to a body: trailers add nothing. -/
def bytes : Frame → Bytes
  | .data bytes => bytes
  | .trailers | .lost => []

/-- The data of frames, in their order. -/
def content (frames : List Frame) : Bytes := frames.flatMap bytes

theorem content_cons (f : Frame) (frames : List Frame) :
    content (f :: frames) = f.bytes ++ content frames := List.flatMap_cons

theorem content_append (frames frames' : List Frame) :
    content (frames ++ frames') = content frames ++ content frames' := List.flatMap_append

/-- The frames hold no loss, and not more data than the bound allows. -/
def Pass (bound : Option Nat) (frames : List Frame) : Prop :=
  .lost ∉ frames ∧ isWithin bound (content frames).length = true

/-- Frames pass when the first does and the others pass what is left of the bound. -/
theorem pass_cons_iff {bound : Option Nat} {f : Frame} {frames : List Frame} :
    Pass bound (f :: frames) ↔
      f ≠ .lost ∧ isWithin bound f.bytes.length = true ∧
        Pass (bound.map (· - f.bytes.length)) frames := by
  simp only [Pass, content_cons, List.length_append, isWithin_add, List.mem_cons, not_or]
  rw [ne_comm]
  tauto

/-- What is in front of frames that pass does so as well. -/
theorem Pass.front {bound : Option Nat} {frames frames' : List Frame}
    (h : Pass bound (frames ++ frames')) : Pass bound frames := by
  obtain ⟨hlost, hwithin⟩ := h
  rw [content_append, List.length_append, isWithin_add] at hwithin
  exact ⟨fun hmem => hlost (List.mem_append_left _ hmem), hwithin.1⟩

/-! ## The stream of frames -/

/-- Frames that pass become chunks, and take their data off the bound. -/
theorem items_append (status : Nat) {bound : Option Nat} {frames : List Frame}
    (h : Pass bound frames) (rest : List Frame) :
    items status bound (frames ++ rest) =
      (frames.map bytes).map .ok ++
        items status (bound.map (· - (content frames).length)) rest := by
  -- the bound goes down with each frame, so the induction is over all bounds
  induction frames generalizing bound with
  | nil =>
    have hnone : bound.map (· - (content []).length) = bound := by cases bound <;> rfl
    rw [hnone]
    rfl
  | cons f frames ih =>
    obtain ⟨hne, hwithin, htail⟩ := pass_cons_iff.mp h
    have hleft : (bound.map (· - f.bytes.length)).map (· - (content frames).length) =
        bound.map (· - (content (f :: frames)).length) := by
      rw [content_cons, List.length_append]
      cases bound with
      | none => rfl
      | some limit => simp [Nat.sub_sub]
    rw [← hleft, List.cons_append, List.map_cons, List.map_cons, List.cons_append, ← ih htail]
    cases f with
    | data bytes => exact if_pos hwithin
    | trailers =>
      have hsame : bound.map (· - (Frame.trailers).bytes.length) = bound := by
        cases bound <;> rfl
      rw [hsame]
      rfl
    | lost => exact absurd rfl hne

/-- Either all frames pass, or one behind frames that pass is too large, or one is a loss. -/
inductive Stream (bound : Option Nat) : List Frame → Prop
  | whole {frames : List Frame} : Pass bound frames → Stream bound frames
  | crossed {frames : List Frame} {bytes : Bytes} {rest : List Frame} : Pass bound frames →
      isWithin bound (content (frames ++ [.data bytes])).length = false →
      Stream bound (frames ++ .data bytes :: rest)
  | broken {frames rest : List Frame} : Pass bound frames → Stream bound (frames ++ .lost :: rest)

/-- Every list of frames is of one of the three kinds, by induction from its end: a frame more
    either passes as well or is the one that does not. -/
theorem Stream.of (bound : Option Nat) (frames : List Frame) : Stream bound frames := by
  induction frames using List.reverseRecOn with
  | nil => exact .whole ⟨List.not_mem_nil, by cases bound <;> simp [isWithin, content]⟩
  | append_singleton frames f ih =>
    -- what does not pass is found among the first frames, or it is the last one
    cases ih with
    | whole h =>
      cases f with
      | data bytes =>
        cases hw : isWithin bound (content (frames ++ [.data bytes])).length with
        | true => exact .whole ⟨by simpa using h.1, hw⟩
        | false => exact .crossed h hw
      | trailers => exact .whole ⟨by simpa using h.1, by simpa [content, Frame.bytes] using h.2⟩
      | lost => exact .broken h
    | crossed h hw =>
      rw [List.append_assoc]
      exact .crossed h hw
    | broken h =>
      rw [List.append_assoc]
      exact .broken h

variable {status : Nat} {bound : Option Nat}

/-- Frames that pass are read as their data. -/
theorem collect_whole {frames : List Frame} (h : Pass bound frames) :
    (Body.stream (items status bound frames)).collect = .ok (content frames) := by
  have hitems := items_append status h []
  rw [List.append_nil] at hitems
  have hread := Body.Read.whole (frames.map bytes)
  rw [hitems]
  show (Body.stream (_ ++ [])).collect = _
  rw [List.append_nil, hread.eq.1, content, List.flatMap_def]

/-- The first frame beyond the bound ends the reading with the error of the bound, whatever is
    behind it. -/
theorem collect_crossed {frames rest : List Frame} {data : Bytes} (h : Pass bound frames)
    (hw : isWithin bound (content (frames ++ [.data data])).length = false) :
    (Body.stream (items status bound (frames ++ .data data :: rest))).collect =
      .error (BodyProblem.limitExceeded.error status) := by
  -- the frame is larger than what those before it have left of the bound
  have hleft : isWithin (bound.map (· - (content frames).length)) data.length = false := by
    rw [← Bool.not_eq_true] at hw ⊢
    intro hdata
    refine hw ?_
    rw [content_append, List.length_append, isWithin_add]
    exact ⟨h.2, by simpa [content, bytes] using hdata⟩
  have hitem : items status (bound.map (· - (content frames).length)) (.data data :: rest) =
      [.error (BodyProblem.limitExceeded.error status)] := by
    rw [items, hleft]
    rfl
  rw [items_append status h, hitem]
  exact (Body.Read.broken _ _ []).eq.1

/-- A lost frame behind frames that pass ends it with the error of the connection. -/
theorem collect_broken {frames rest : List Frame} (h : Pass bound frames) :
    (Body.stream (items status bound (frames ++ .lost :: rest))).collect =
      .error (BodyProblem.connectionLost.error status) := by
  rw [items_append status h]
  exact (Body.Read.broken _ _ []).eq.1

/-- A body can be read just if all its frames pass, and then it is their data. -/
theorem collect_ok_iff {frames : List Frame} {payload : Bytes} :
    (Body.stream (items status bound frames)).collect = .ok payload ↔
      Pass bound frames ∧ payload = content frames := by
  constructor
  · intro h
    cases Stream.of bound frames with
    | whole hp =>
      rw [collect_whole hp] at h
      exact ⟨hp, (Except.ok.inj h).symm⟩
    | crossed hp hw =>
      rw [collect_crossed hp hw] at h
      cases h
    | broken hp =>
      rw [collect_broken hp] at h
      cases h
  · rintro ⟨hp, rfl⟩
    exact collect_whole hp

/-- In front of any loss, the frames hold more data than the bound allows. -/
def Crosses (bound : Option Nat) (frames : List Frame) : Prop :=
  ∃ limit before after, bound = some limit ∧ frames = before ++ after ∧ .lost ∉ before ∧
    limit < (content before).length

/-- Frames beyond the bound do not pass. -/
theorem Crosses.not_pass {limit : Nat} {before : List Frame}
    (h : limit < (content before).length) : ¬ Pass (some limit) before := by
  rintro ⟨-, hwithin⟩
  have hle : (content before).length ≤ limit := isWithin_iff.mp hwithin limit rfl
  omega

/-- A body that crosses its bound cannot be read. -/
theorem Crosses.collect {frames : List Frame} (h : Crosses bound frames) :
    (Body.stream (items status bound frames)).collect =
      .error (BodyProblem.limitExceeded.error status) := by
  obtain ⟨limit, before, after, rfl, hframes, hlost, hmore⟩ := h
  cases Stream.of (some limit) frames with
  | whole hp =>
    rw [hframes] at hp
    exact absurd hp.front (Crosses.not_pass hmore)
  | crossed hp hw => exact collect_crossed hp hw
  | broken hp =>
    -- the frames that cross the bound stand before the loss, among those that pass
    rcases List.append_eq_append_iff.mp hframes with ⟨u, rfl, hu⟩ | ⟨u, rfl, -⟩
    · cases u with
      | nil =>
        rw [List.append_nil] at hmore
        exact absurd hp (Crosses.not_pass hmore)
      | cons f u =>
        rw [List.cons_append, List.cons.injEq] at hu
        exact absurd (by simp [← hu.1]) hlost
    · exact absurd hp.front (Crosses.not_pass hmore)

end Frame

/-! ## Responses -/

/-- The error of reading a body beyond its bound. -/
def limitError (status : Nat) : Error :=
  .connection s!"reading body of HTTP {status} response: length limit exceeded"

/-- The text of the error, put together. -/
theorem limitExceeded_error (status : Nat) :
    BodyProblem.limitExceeded.error status = limitError status := by
  have hjoin : " response: " ++ "length limit exceeded" = " response: length limit exceeded" := by
    decide +kernel
  show Error.connection ("reading body of HTTP " ++ toString status ++ " response: " ++
    "length limit exceeded") = _
  rw [String.append_assoc, hjoin]
  rfl

/-- How the body of a reply is read under a bound. -/
structure Reply.Bounded (bound : Option Nat) (reply : Reply) : Prop where
  /-- It is read just if no frame is lost and the data keeps to the bound; and then it is that
      data, however it was framed. -/
  reads : ∀ payload, (reply.response bound).bytes = .ok payload ↔
    .lost ∉ reply.frames ∧
      (∀ limit, bound = some limit → (Frame.content reply.frames).length ≤ limit) ∧
      payload = Frame.content reply.frames
  /-- Beyond the bound every way to read it fails. -/
  crosses : Frame.Crosses bound reply.frames →
    (reply.response bound).bytes = .error (limitError reply.status) ∧
      (reply.response bound).text = .error (limitError reply.status) ∧
      ∀ (α : Type) (reader : Json.Reader α),
        (reply.response bound).json reader = .error (limitError reply.status)

/-- Every reply is so bounded, under every bound. -/
theorem Reply.bounded (bound : Option Nat) (reply : Reply) : reply.Bounded bound where
  reads payload := by
    show (Body.stream (Frame.items reply.status bound reply.frames)).collect = _ ↔ _
    rw [Frame.collect_ok_iff, Frame.Pass, isWithin_iff, and_assoc]
  crosses h := by
    have hbytes : (reply.response bound).bytes = .error (limitError reply.status) :=
      h.collect.trans (congrArg _ (limitExceeded_error reply.status))
    refine ⟨hbytes, ?_, fun α reader => ?_⟩
    · rw [Response.text, hbytes]
    · rw [Response.json, hbytes]

/-! ## Clients -/

/-- The settings hand the bound on; without one the default bounds nothing. -/
theorem Settings.config_maxBodySize (settings : Settings) :
    settings.config.maxBodySize = settings.maxBodySize := by
  cases h : settings.maxBodySize <;> simp [Settings.config, Config.default, h]

/-- What the transport makes of a reply. -/
theorem Service.transport_answered {peer : Peer} {config : Config} {request : Request}
    {m : Message} {reply : Reply} (hm : Exchange.dispatch request = .ok m)
    (hreply : peer m = .answered reply) :
    (Service.transport peer config).call request =
      ⟨.ok (reply.response config.maxBodySize), 0, [], [request]⟩ := by
  show Exchange.perform peer config request = _
  rw [Exchange.perform, hm]
  dsimp only
  rw [hreply, Exchange.receive]

/-- It is bounded as the settings say. -/
theorem Service.transport_call {peer : Peer} {settings : Settings} {request : Request}
    {m : Message} {reply : Reply} (hm : Exchange.dispatch request = .ok m)
    (hreply : peer m = .answered reply) :
    (Service.transport peer settings.config).call request =
      ⟨.ok (reply.response settings.maxBodySize), 0, [], [request]⟩ := by
  rw [Service.transport_answered hm hreply, settings.config_maxBodySize]

/-- What a client with these layers makes of a reply whose body is bounded. -/
structure Builder.KeepsBound (layers : List Middleware) (bound : Option Nat) (reply : Reply)
    (run : Run Response) : Prop where
  /-- Behind a mapper, an error response beyond the bound is that error of reading it. -/
  error_response : 400 ≤ reply.status → (∃ m, .mapping m ∈ layers) →
    Frame.Crosses bound reply.frames → run.result = .error (limitError reply.status)
  /-- The error is none of those that an answer of the platform makes. -/
  no_failure : (limitError reply.status).failure = none ∧ (limitError reply.status).status = none ∧
    (limitError reply.status).isClientError = false ∧
    (limitError reply.status).isServerError = false ∧ (limitError reply.status).isNotFound = false
  /-- Any other response comes through unread, whatever its body holds. -/
  other_response : reply.status < 400 → run.result = .ok (reply.response bound) ∧ run.taken = 0

/-- A client keeps the bound of its settings, whatever layers are around the transport. The first
    mapper decides the call, and reading the body fails it with the bound's error. -/
theorem Builder.keepsBound (clock : Clock) (settings : Settings) (layers : List Middleware)
    (defaults : Bool) {peer : Peer} {request : Request} {m : Message} {reply : Reply}
    (hm : Exchange.dispatch request = .ok m) (hreply : peer m = .answered reply) :
    KeepsBound layers settings.maxBodySize reply
      ((build (Service.transport peer) clock
        ⟨settings, layers.map Middleware.layer, defaults⟩).service.call request) := by
  have hcall : (Service.transport peer settings.config).call request =
      ⟨.ok (reply.response settings.maxBodySize), 0, [], [request]⟩ :=
    Service.transport_call hm hreply
  -- the call is the transport's answer, given to the first mapper
  obtain ⟨hr, ht, -⟩ := build_agrees (Service.transport peer) clock settings layers defaults
    request
  obtain ⟨hr', ht', -⟩ := (Service.transport peer settings.config).mappedBy_call
    (firstMapper layers) request
  rw [hcall] at hr' ht'
  refine ⟨?_, ⟨rfl, rfl, rfl, rfl, rfl⟩, ?_⟩
  · rintro hstatus ⟨mapper, hmapper⟩ hcrosses
    obtain ⟨first, hfirst⟩ := exists_firstMapper hmapper
    have hbytes : (reply.response settings.maxBodySize).body.collect =
        .error (limitError reply.status) := ((reply.bounded _).crosses hcrosses).1
    rw [hr, hr', hfirst, mapOutcome, Run.bind_of_ok, Mapper.map_of_le hstatus, hbytes]
  · intro hstatus
    rw [hr, hr', ht, ht']
    cases firstMapper layers with
    | none => exact ⟨rfl, rfl⟩
    | some first =>
      rw [mapOutcome, Run.bind_of_ok, Mapper.map_of_lt hstatus]
      exact ⟨rfl, rfl⟩

/-- The body of a response is bounded as configured: what the transport gives can be read just if it
    keeps to the bound, and of a body that does not, a client reports so only where it reads it. -/
theorem Builder.body_bound_kept (clock : Clock) (settings : Settings) (layers : List Middleware)
    (defaults : Bool) {peer : Peer} {request : Request} {m : Message} {reply : Reply}
    (hm : Exchange.dispatch request = .ok m) (hreply : peer m = .answered reply) :
    ((Service.transport peer settings.config).call request).result =
        .ok (reply.response settings.maxBodySize) ∧
      reply.Bounded settings.maxBodySize ∧
      KeepsBound layers settings.maxBodySize reply
        ((build (Service.transport peer) clock
          ⟨settings, layers.map Middleware.layer, defaults⟩).service.call request) := by
  refine ⟨?_, reply.bounded _, keepsBound clock settings layers defaults hm hreply⟩
  rw [Service.transport_call hm hreply]

/-- A bound of three bytes, crossed by the last of four frames. -/
theorem Builder.body_bound_kept_crossed :
    let settings : Settings := { Settings.none with maxBodySize := some 3 }
    let layers : List Middleware := [.logging (.summary .stopped), .mapping ⟨.v3⟩]
    let url : Url := ⟨"http", "", "", some (.name "h"), none, .segments [""], none, none⟩
    let request := Request.new .get url
    let message : Message :=
      ⟨.get, .absolute (Utf8.encode "http") (Utf8.encode "h") [0x2F], [], []⟩
    let reply : Reply := ⟨503, [], [.data [1, 2], .data [], .trailers, .data [3, 4]]⟩
    let peer : Peer := fun _ => .answered reply
    Exchange.dispatch request = .ok message ∧ peer message = .answered reply ∧
      ((build (Service.transport peer) .stopped
        ⟨settings, layers.map Middleware.layer, true⟩).service.call request).result =
        .error (.connection "reading body of HTTP 503 response: length limit exceeded") := by
  intro settings layers url request message reply peer
  have hm : Exchange.dispatch request = .ok message := by decide +kernel
  have hreply : peer message = .answered reply := rfl
  obtain ⟨-, -, hkept⟩ := body_bound_kept .stopped settings layers true hm hreply
  have hcrosses : Frame.Crosses (some 3) reply.frames :=
    ⟨3, reply.frames, [], rfl, rfl, by decide, by decide⟩
  have hmapper : ∃ m, .mapping m ∈ layers := ⟨⟨.v3⟩, by simp [layers]⟩
  have hwording : limitError 503 =
      .connection "reading body of HTTP 503 response: length limit exceeded" := by decide +kernel
  refine ⟨hm, hreply, ?_⟩
  rw [hkept.error_response (by decide) hmapper hcrosses]
  exact congrArg Except.error hwording

end PlatformClient
