import JingOS.Lib.Window
import JingOS.Monitor.Rounds

/-!
# The output of the guest (`src/main.rs`)

A thread of the runner copies what the guest writes to its serial port to the output of the host,
and tells when the monitor of the guest is ready: it looks for the marker that `input_loop` prints.
The reads of the thread cut the stream anywhere, also inside the marker.

* `Forwarder.round` — one round of the thread's loop;
* `Forwards` — what the loop has done, read off the stream so far;
* `marker_found_in_any_chunking` — the marker is told once, and where it ends.
-/

namespace JingOS.Host

open Ascii Window
open JingOS.Monitor

/-- `SERIAL_MONITOR_READY_MARKER`. -/
def serialMonitorReadyMarker : List UInt8 := textBytes "[[JINGOS_MONITOR_READY]]"

/-- What the system gives in a round: the bytes that `read` puts into its buffer, and how
`write_all` ends. An error comes with its text; before one of the write so many bytes are out. -/
structure Round where
  read : Except String (List UInt8)
  write : Except (ℕ × String) Unit

/-- The variables of the thread, and what it has done. -/
structure Forwarder where
  markerWindow : List UInt8
  readySent : Bool
  stdout : List UInt8
  stderr : List String
  /-- The calls of `ready_tx.send`. -/
  sent : ℕ

namespace Forwarder

/-- Nothing was read. -/
def start : Forwarder :=
  { markerWindow := [], readySent := false, stdout := [], stderr := [], sent := 0 }

/-- The `for` loop over the bytes of a chunk: a full window loses its first byte, and the loop is
left when the window is the marker. -/
def scanChunk (s : Forwarder) (chunk : List UInt8) : Forwarder :=
  let (markerWindow, found) := search serialMonitorReadyMarker s.markerWindow chunk
  if found then { s with markerWindow, readySent := true, sent := s.sent + 1 }
  else { s with markerWindow }

/-- One round of the loop: does it go on? -/
def round (s : Forwarder) (r : Round) : Bool × Forwarder :=
  match r.read with
  | .error error =>
    (false, { s with stderr := s.stderr ++ [s!"failed to read qemu serial output: {error}"] })
  -- the guest has closed its output
  | .ok [] => (false, s)
  | .ok (byte :: bytes) =>
    match r.write with
    | .error (written, error) =>
      (false, { s with
        stdout := s.stdout ++ (byte :: bytes).take written
        stderr := s.stderr ++ [s!"failed to forward qemu serial output: {error}"] })
    | .ok () =>
      let s := { s with stdout := s.stdout ++ byte :: bytes }
      (true, if s.readySent then s else s.scanChunk (byte :: bytes))

/-- The loop, up to its end or to a read that has not come back. -/
def run (s : Forwarder) : List Round → Forwarder
  | [] => s
  | r :: rest =>
    match s.round r with
    | (true, s) => s.run rest
    | (false, s) => s

end Forwarder

/-- Rounds without an error, for the chunks that are read. -/
def rounds (chunks : List (List UInt8)) : List Round :=
  chunks.map fun chunk => { read := .ok chunk, write := .ok () }

/-- The round in which the guest has closed its output. -/
def closed : Round := { read := .ok [], write := .ok () }

/-- What the loop has done with the stream so far. -/
structure Forwards (s : Forwarder) (stream : List UInt8) : Prop where
  stdout : s.stdout = stream
  readySent : s.readySent = true ↔ serialMonitorReadyMarker <:+: stream
  sent : s.sent = if serialMonitorReadyMarker <:+: stream then 1 else 0
  markerWindow : s.readySent = false →
    s.markerWindow = stream.rtake serialMonitorReadyMarker.length

theorem serialMonitorReadyMarker_ne_nil : serialMonitorReadyMarker ≠ [] := by decide

theorem start_forwards : Forwards .start [] := by
  have hnot : ¬ serialMonitorReadyMarker <:+: [] := by
    rw [List.infix_nil]
    exact serialMonitorReadyMarker_ne_nil
  constructor
  · rfl
  · exact iff_of_false Bool.false_ne_true hnot
  · rw [if_neg hnot]
    rfl
  · intro _
    rfl

section

variable {s : Forwarder} {stream chunk : List UInt8}

/-- The scan, as long as the marker has not come. -/
theorem scanChunk_forwards (h : Forwards s stream) (hsent : s.readySent = false) :
    Forwards ({ s with stdout := s.stdout ++ chunk }.scanChunk chunk) (stream ++ chunk) := by
  have hnot : ¬ serialMonitorReadyMarker <:+: stream := by
    rw [← h.readySent, hsent]
    exact Bool.false_ne_true
  -- the window is long enough: the search finds the marker exactly if the stream has it now
  have hfound := search_found serialMonitorReadyMarker_ne_nil hnot chunk
  have hzero : s.sent = 0 := h.sent.trans (if_neg hnot)
  unfold Forwarder.scanChunk
  simp only [h.markerWindow hsent]
  cases hresult : (search serialMonitorReadyMarker
      (stream.rtake serialMonitorReadyMarker.length) chunk).2 with
  | true =>
    have hinfix := hfound.mp hresult
    rw [if_pos rfl]
    constructor
    · exact congrArg (· ++ chunk) h.stdout
    · exact ⟨fun _ => hinfix, fun _ => rfl⟩
    · rw [if_pos hinfix, hzero]
    · intro hfalse
      cases hfalse
  | false =>
    have hmissed : ¬ serialMonitorReadyMarker <:+: stream ++ chunk := by
      rw [← hfound, hresult]
      exact Bool.false_ne_true
    rw [if_neg Bool.false_ne_true]
    constructor
    · exact congrArg (· ++ chunk) h.stdout
    · rw [hsent]
      exact iff_of_false Bool.false_ne_true hmissed
    · rw [if_neg hmissed, hzero]
    · intro _
      exact search_window serialMonitorReadyMarker_ne_nil hresult

/-- Once the marker has come, chunks are only copied. -/
theorem copied_forwards (h : Forwards s stream) (hsent : s.readySent = true) :
    Forwards { s with stdout := s.stdout ++ chunk } (stream ++ chunk) := by
  have hinfix : serialMonitorReadyMarker <:+: stream := h.readySent.mp hsent
  have hinfix' : serialMonitorReadyMarker <:+: stream ++ chunk :=
    List.infix_append_of_infix_left hinfix
  constructor
  · exact congrArg (· ++ chunk) h.stdout
  · exact iff_of_true hsent hinfix'
  · rw [if_pos hinfix']
    exact h.sent.trans (if_pos hinfix)
  · intro hfalse
    rw [hsent] at hfalse
    cases hfalse

/-- **Step.** A round copies its chunk, and tells the marker if it ends there for the first time. -/
theorem round_forwards (h : Forwards s stream) (hchunk : chunk ≠ []) :
    ∃ s', s.round { read := .ok chunk, write := .ok () } = (true, s') ∧
      Forwards s' (stream ++ chunk) := by
  rcases List.exists_cons_of_ne_nil hchunk with ⟨byte, bytes, rfl⟩
  refine ⟨_, rfl, ?_⟩
  simp only
  by_cases hsent : s.readySent = true
  · rw [if_pos hsent]
    exact copied_forwards h hsent
  · rw [if_neg hsent]
    exact scanChunk_forwards h (Bool.not_eq_true _ ▸ hsent)

/-- **Run.** So do any number of rounds, and the loop goes on behind them. -/
theorem run_forwards (h : Forwards s stream) {chunks : List (List UInt8)}
    (hchunks : ∀ chunk ∈ chunks, chunk ≠ []) (rest : List Round) :
    s.run (rounds chunks ++ rest) = (s.run (rounds chunks)).run rest ∧
      Forwards (s.run (rounds chunks)) (stream ++ chunks.flatten) := by
  induction chunks generalizing s stream with
  | nil =>
    rw [List.flatten_nil, List.append_nil]
    exact ⟨rfl, h⟩
  | cons chunk chunks ih =>
    rcases round_forwards h (hchunks chunk List.mem_cons_self) with ⟨s', hround, h'⟩
    have hrun : ∀ later, s.run (({ read := .ok chunk, write := .ok () } : Round) :: later) =
        s'.run later := by
      intro later
      rw [Forwarder.run, hround]
    have hrest := ih h' fun chunk hmem => hchunks chunk (List.mem_cons_of_mem _ hmem)
    rw [List.append_assoc, ← List.flatten_cons] at hrest
    change s.run (_ :: (rounds chunks ++ rest)) = (s.run (_ :: rounds chunks)).run rest ∧
      Forwards (s.run (_ :: rounds chunks)) _
    rw [hrun, hrun]
    exact hrest

end

/-! ## Streams -/

/-- The thread's state when so many chunks have been read. -/
def forwarded (chunks : List (List UInt8)) (count : ℕ) : Forwarder :=
  Forwarder.start.run (rounds (chunks.take count))

section

variable {chunks : List (List UInt8)}

theorem forwarded_forwards (hchunks : ∀ chunk ∈ chunks, chunk ≠ []) (count : ℕ) :
    Forwards (forwarded chunks count) (chunks.take count).flatten := by
  have hfirst : ∀ chunk ∈ chunks.take count, chunk ≠ [] :=
    fun chunk hmem => hchunks chunk (List.mem_of_mem_take hmem)
  exact (run_forwards start_forwards hfirst []).2

/-- The first chunks are the beginning of the stream. -/
theorem flatten_take (chunks : List (List UInt8)) (count : ℕ) :
    (chunks.take count).flatten = chunks.flatten.take (chunks.take count).flatten.length := by
  rw [← List.prefix_iff_eq_take]
  refine ⟨(chunks.drop count).flatten, ?_⟩
  rw [← List.flatten_append, List.take_append_drop]

/-- Every byte of the stream is in a chunk. -/
theorem exists_chunk {n : ℕ} (hpos : 0 < n) (hle : n ≤ chunks.flatten.length) :
    ∃ k < chunks.length, (chunks.take k).flatten.length < n ∧
      n ≤ (chunks.take (k + 1)).flatten.length := by
  have hall : ∃ k, n ≤ (chunks.take k).flatten.length :=
    ⟨chunks.length, by rw [List.take_length]; exact hle⟩
  -- the first chunks that have so many bytes, less the last of them
  rcases hfind : Nat.find hall with _ | k
  · have hzero := Nat.find_spec hall
    rw [hfind, List.take_zero, List.flatten_nil, List.length_nil] at hzero
    omega
  · have hlt : ¬ n ≤ (chunks.take k).flatten.length := Nat.find_min hall (by omega)
    have hspec := Nat.find_spec hall
    rw [hfind] at hspec
    refine ⟨k, ?_, Nat.not_le.mp hlt, hspec⟩
    by_contra hk
    rw [List.take_of_length_le (Nat.not_lt.mp hk)] at hlt
    exact hlt hle

/-- **The marker.** However the reads cut the stream, all of it is copied; the marker is told once
if it is in the stream and never if not; and it is told in the chunk with its last byte, where it
comes for the first time. -/
theorem marker_found_in_any_chunking (hchunks : ∀ chunk ∈ chunks, chunk ≠ []) :
    (Forwarder.start.run (rounds chunks ++ [closed])).stdout = chunks.flatten ∧
      (Forwarder.start.run (rounds chunks ++ [closed])).sent =
        (if serialMonitorReadyMarker <:+: chunks.flatten then 1 else 0) ∧
      (∀ k, (forwarded chunks k).stdout = (chunks.take k).flatten ∧ (forwarded chunks k).sent =
        if serialMonitorReadyMarker <:+: (chunks.take k).flatten then 1 else 0) ∧
      (serialMonitorReadyMarker <:+: chunks.flatten →
        ∃ n, FirstEnd serialMonitorReadyMarker chunks.flatten n ∧
          ∃ k < chunks.length, (chunks.take k).flatten.length < n ∧
            n ≤ (chunks.take (k + 1)).flatten.length ∧
            (forwarded chunks k).sent = 0 ∧ (forwarded chunks (k + 1)).sent = 1) := by
  rcases run_forwards start_forwards hchunks [closed] with ⟨hrun, hforwards⟩
  rw [hrun]
  refine ⟨hforwards.stdout, hforwards.sent, ?_, ?_⟩
  · intro k
    have hk := forwarded_forwards hchunks k
    exact ⟨hk.stdout, hk.sent⟩
  · intro hinfix
    -- the first occurrence ends in one chunk, and that chunk is the one that sends
    rcases exists_firstEnd hinfix with ⟨n, hn⟩
    have hpos : 0 < n := by
      by_contra hzero
      have hsuffix := hn.2.1
      rw [Nat.eq_zero_of_not_pos hzero, List.take_zero, List.suffix_nil] at hsuffix
      exact serialMonitorReadyMarker_ne_nil hsuffix
    rcases exists_chunk hpos hn.1 with ⟨k, hk, hbefore, hbehind⟩
    have hseen : ∀ j, serialMonitorReadyMarker <:+: (chunks.take j).flatten ↔
        n ≤ (chunks.take j).flatten.length := by
      intro j
      have hiff := hn.infix_take_iff (chunks.take j).flatten.length
      rwa [← flatten_take] at hiff
    refine ⟨n, hn, k, hk, hbefore, hbehind, ?_, ?_⟩
    · rw [(forwarded_forwards hchunks k).sent, if_neg]
      rw [hseen]
      exact Nat.not_le.mpr hbefore
    · rw [(forwarded_forwards hchunks (k + 1)).sent, if_pos ((hseen _).mpr hbehind)]

/-- The guest and the host: a monitor that has entered its loop is noticed, once, however its output
is cut. -/
theorem monitor_ready_noticed {boot : Boot} {w w' : World} (h : w.Inv)
    (hrun : (startInputLoop boot).run w = .ok () w')
    (hstream : chunks.flatten = textBytes w'.serial) (hchunks : ∀ chunk ∈ chunks, chunk ≠ []) :
    (Forwarder.start.run (rounds chunks)).sent = 1 := by
  rw [startInputLoop_run h] at hrun
  cases hrun
  have hbanner : serialMonitorReadyMarker <:+: textBytes banner := by decide
  have hserial : (w.entered boot).serial = w.serial ++ banner := rfl
  have hinfix : serialMonitorReadyMarker <:+: chunks.flatten := by
    rw [hstream, hserial, textBytes_append]
    exact List.infix_append_of_infix_right hbanner
  exact (run_forwards start_forwards hchunks []).2.sent.trans (if_pos hinfix)

end

/-- The marker behind one bracket too many, cut inside. -/
theorem marker_found_split :
    let chunks := [textBytes "[[[JINGOS_MON", textBytes "ITOR_READY]]\n", textBytes "jingos> "]
    (∀ chunk ∈ chunks, chunk ≠ []) ∧
      (Forwarder.start.run (rounds chunks ++ [closed])).sent = 1 ∧
      (forwarded chunks 1).sent = 0 ∧ (forwarded chunks 2).sent = 1 := by
  intro chunks
  have hchunks : ∀ chunk ∈ chunks, chunk ≠ [] := by decide
  rcases marker_found_in_any_chunking hchunks with ⟨_, hsent, hafter, _⟩
  refine ⟨hchunks, ?_, ?_, ?_⟩
  · rw [hsent, if_pos]
    exact ⟨textBytes "[", textBytes "\njingos> ", by decide⟩
  · rw [(hafter 1).2, if_neg]
    decide
  · rw [(hafter 2).2, if_pos]
    exact ⟨textBytes "[", textBytes "\n", by decide⟩

end JingOS.Host
