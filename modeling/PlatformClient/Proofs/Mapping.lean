/-
  What the mapper makes of responses.

  1. **Reading.**  `Body.Read` says what comes of reading a body to its end, by the shape of the
     body: a stream of chunks yields them all, and one that breaks yields the first error and leaves
     what is behind it.  The loop `drain` keeps the chunks read so far, and a chunk moves from the
     stream to them (`drain_chunks`).
  2. **Mapping.**  A response below 400 passes untouched, so that reading it afterwards is reading
     the original.  Any other is read to its end and becomes an error, whatever comes of that.
-/
import Mathlib.Data.List.Forall2
import PlatformClient.Service

namespace PlatformClient

/-! ## Reading a body -/

namespace Body

/-- What comes of reading a body to its end, and how many items of a stream that takes. -/
inductive Read : Body → Except Error Bytes → Nat → Prop
  | empty : Read .empty (.ok []) 0
  | full (bytes : Bytes) : Read (.full bytes) (.ok bytes) 0
  | whole (chunks : List Bytes) :
      Read (.stream (chunks.map .ok)) (.ok chunks.flatten) chunks.length
  | broken (chunks : List Bytes) (e : Error) (rest : List (Except Error Bytes)) :
      Read (.stream (chunks.map .ok ++ .error e :: rest)) (.error e) (chunks.length + 1)

/-- Chunks at the front of a stream move to those read before. -/
theorem drain_chunks (done chunks : List Bytes) (rest : List (Except Error Bytes)) :
    drain done (chunks.map .ok ++ rest) = drain (chunks.reverse ++ done) rest := by
  induction chunks generalizing done with
  | nil => rfl
  | cons chunk chunks ih =>
    rw [List.map_cons, List.cons_append, drain, ih (chunk :: done), List.reverse_cons,
      List.append_assoc]
    rfl

/-- Chunks that all arrive are gathered, and none is left. -/
theorem drain_whole (chunks : List Bytes) :
    drain [] (chunks.map .ok) = (.ok chunks.flatten, []) := by
  have h := drain_chunks [] chunks []
  rw [List.append_nil, List.append_nil] at h
  rw [h, drain, List.reverse_reverse]

/-- The first error ends the gathering; what is behind it is left alone. -/
theorem drain_broken (chunks : List Bytes) (e : Error) (rest : List (Except Error Bytes)) :
    drain [] (chunks.map .ok ++ .error e :: rest) = (.error e, rest) := by
  rw [drain_chunks, drain]

/-- A stream yields chunks only, or chunks and then an error. -/
theorem exists_chunks (items : List (Except Error Bytes)) :
    (∃ chunks : List Bytes, items = chunks.map .ok) ∨
      ∃ (chunks : List Bytes) (e : Error) (rest : List (Except Error Bytes)),
        items = chunks.map .ok ++ .error e :: rest := by
  induction items with
  | nil => exact .inl ⟨[], rfl⟩
  | cons item items ih =>
    cases item with
    | error e => exact .inr ⟨[], e, items, rfl⟩
    | ok chunk =>
      rcases ih with ⟨chunks, rfl⟩ | ⟨chunks, e, rest, rfl⟩
      · exact .inl ⟨chunk :: chunks, rfl⟩
      · exact .inr ⟨chunk :: chunks, e, rest, rfl⟩

theorem Read.eq {body : Body} {result : Except Error Bytes} {n : Nat} (h : body.Read result n) :
    body.collect = result ∧ body.taken = n := by
  cases h with
  | empty => exact ⟨rfl, rfl⟩
  | full => exact ⟨rfl, rfl⟩
  | whole chunks =>
    rw [collect, taken, drain_whole]
    exact ⟨rfl, by simp⟩
  | broken chunks e rest =>
    rw [collect, taken, drain_broken]
    refine ⟨rfl, ?_⟩
    dsimp only
    rw [List.length_append, List.length_map, List.length_cons]
    omega

theorem read_collect (body : Body) : body.Read body.collect body.taken := by
  cases body with
  | empty => exact .empty
  | full bytes => exact .full bytes
  | stream items =>
    -- the shape of the stream tells what is read, and that is what the loop gives
    have build : ∀ {result : Except Error Bytes} {n : Nat}, Read (.stream items) result n →
        Read (.stream items) (collect (.stream items)) (taken (.stream items)) := by
      intro result n h
      obtain ⟨h1, h2⟩ := h.eq
      rwa [h1, h2]
    rcases exists_chunks items with ⟨chunks, rfl⟩ | ⟨chunks, e, rest, rfl⟩
    · exact build (.whole chunks)
    · exact build (.broken chunks e rest)

end Body

/-! ## Runs -/

namespace Run

/-- A run that only has a result adds nothing to what comes after it. -/
theorem bind_of_ok {α β : Type} (a : α) (f : α → Run β) : (of (.ok a)).bind f = f a := by
  simp [bind, of]

end Run

/-! ## Mapping one response -/

namespace Mapper

/-- Below 400 a mapper does nothing, and reads nothing. -/
theorem map_of_lt {m : Mapper} {r : Response} (h : r.status < 400) : m.map r = Run.of (.ok r) := by
  have herror : r.isError = false := by simpa [Response.isError] using h
  rw [map, if_neg (by rw [herror]; decide)]

/-- From 400 on it reads the body and classifies what it read, or fails as the reading did. -/
theorem map_of_le {m : Mapper} {r : Response} (h : 400 ≤ r.status) :
    m.map r =
      match r.body.collect with
      | .error e => ⟨.error e, r.body.taken, [], []⟩
      | .ok payload =>
        ⟨.error (.api (classify m.schema r.status payload)), r.body.taken,
          classifyReport m.schema r.status payload, []⟩ := by
  have herror : r.isError = true := by simpa [Response.isError] using h
  rw [map, if_pos herror]
  show (Run.collect r.body).bind _ = _
  rw [Run.bind, Run.collect]
  cases r.body.collect with
  | error e => rfl
  | ok payload => simp [Run.classify, Run.of, Bind.bind, Run.bind]

/-- Mapping sends nothing. -/
theorem map_sent (m : Mapper) (r : Response) : (m.map r).sent = [] := by
  rcases Nat.lt_or_ge r.status 400 with h | h
  · rw [map_of_lt h]
    rfl
  · rw [map_of_le h]
    split
    · rfl
    · rfl

/-- How a mapper treats a response. -/
structure Treats (m : Mapper) (r : Response) (run : Run Response) : Prop where
  /-- A response without error comes out as it went in, and nothing was taken from it. -/
  passes : r.status < 400 → run = Run.of (.ok r)
  /-- Whatever is then done with it gives what the original would have given. -/
  leaves_reading : r.status < 400 → ∀ (α : Type) (read : Response → Run α), run.bind read = read r
  /-- An error response is never passed on. -/
  fails : 400 ≤ r.status → ∃ e, run.result = .error e
  /-- A body that breaks gives its own error, once the items up to it are taken. -/
  breaks : 400 ≤ r.status → ∀ e n, r.body.Read (.error e) n → run = ⟨.error e, n, [], []⟩
  /-- Any other body is classified as a whole. -/
  classifies : 400 ≤ r.status → ∀ payload n, r.body.Read (.ok payload) n →
    run = ⟨.error (.api (classify m.schema r.status payload)), n,
      classifyReport m.schema r.status payload, []⟩
  /-- What comes of it does not depend on how a stream was cut into chunks. -/
  rechunked : 400 ≤ r.status → ∀ chunks chunks' : List Bytes, r.body = .stream (chunks.map .ok) →
    chunks'.flatten = chunks.flatten →
    (m.map { r with body := .stream (chunks'.map .ok) }).result = run.result

/-- Every response is treated so. -/
theorem treats_map (m : Mapper) (r : Response) : m.Treats r (m.map r) where
  passes := map_of_lt
  leaves_reading h α read := by rw [map_of_lt h, Run.bind_of_ok]
  fails h := by
    rw [map_of_le h]
    split
    · exact ⟨_, rfl⟩
    · exact ⟨_, rfl⟩
  breaks h e n hread := by
    obtain ⟨hcollect, htaken⟩ := hread.eq
    rw [map_of_le h, hcollect, htaken]
  classifies h payload n hread := by
    obtain ⟨hcollect, htaken⟩ := hread.eq
    rw [map_of_le h, hcollect, htaken]
  rechunked h chunks chunks' hbody hflatten := by
    -- both streams are read to the same bytes, so that the same is classified
    obtain ⟨hcollect, -⟩ := (Body.Read.whole chunks).eq
    obtain ⟨hcollect', -⟩ := (Body.Read.whole chunks').eq
    have hother := map_of_le (m := m) (r := { r with body := .stream (chunks'.map .ok) }) h
    rw [hother, map_of_le h, hbody, hcollect, hcollect', hflatten]

/-- What a mapper lets through is no error response. -/
theorem map_status {m : Mapper} {r r' : Response} (h : (m.map r).result = .ok r') :
    r'.status < 400 := by
  rcases Nat.lt_or_ge r.status 400 with hs | hs
  · rw [map_of_lt hs] at h
    cases h
    exact hs
  · obtain ⟨e, he⟩ := (treats_map m r).fails hs
    rw [he] at h
    cases h

/-- One mapper treats each of many responses by itself; and each body breaks or is whole. -/
theorem map_each (schema : Schema) (responses : List Response) :
    List.Forall₂ (fun r run => Treats ⟨schema⟩ r run ∧ ∃ result n, r.body.Read result n)
      responses (responses.map (Mapper.map ⟨schema⟩)) := by
  rw [List.forall₂_map_right_iff, List.forall₂_same]
  intro r _
  exact ⟨treats_map ⟨schema⟩ r, _, _, r.body.read_collect⟩

end Mapper

end PlatformClient
