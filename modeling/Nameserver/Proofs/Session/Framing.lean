import Nameserver.Proofs.Message.Reading
import Nameserver.Session.Connection

/-!
# Frames on a connection

A stream arrives in pieces, and the server takes off it whatever frames are complete.  Where the
pieces end makes no difference to what is taken and answered (`Connection.serve_append`), nor does
it matter when the answers are read (`Connection.serve_lag`).

**Two handlers.**  What a connection does depends on the acknowledgements alone.  So handlers that
acknowledge alike, whatever they keep besides, leave the same connection behind
(`Connection.serve_congr`).
-/

namespace Nameserver

namespace Frame

variable {payload stream rest : Bytes}

/-- The frame around a payload. -/
def wrap (payload : Bytes) : Bytes := encode32 (UInt32.ofNat payload.length) ++ payload

lemma encode?_of_le (h : payload.length ≤ limit) : encode? payload = some (wrap payload) := if_pos h

lemma encode?_of_lt (h : limit < payload.length) : encode? payload = none :=
  if_neg (Nat.not_le.mpr h)

lemma decodeNat_length (h : payload.length ≤ limit) :
    decodeNat (encode32 (UInt32.ofNat payload.length)) = payload.length := by
  have hlimit : limit = 65536 := rfl
  rw [encode32_eq, decodeNat_four]
  simp only [UInt8.toNat_ofNat', UInt32.toNat_ofNat']
  omega

/-- A frame is taken off a stream if it stands at the front and is no larger than it may be. -/
lemma next_eq_frame_iff :
    next stream = .frame payload rest ↔ payload.length ≤ limit ∧ stream = wrap payload ++ rest := by
  constructor
  · intro h
    simp only [next] at h
    split_ifs at h with hshort hlarge hpart
    cases h
    have hsize : (stream.take lengthSize).length = 4 :=
      List.length_take_of_le (Nat.not_lt.mp hshort)
    have hpayload : ((stream.drop lengthSize).take (decodeNat (stream.take lengthSize))).length =
        decodeNat (stream.take lengthSize) := List.length_take_of_le (Nat.not_lt.mp hpart)
    refine ⟨hpayload.trans_le (Nat.not_lt.mp hlarge), ?_⟩
    have hfront : stream.take lengthSize =
        encode32 (UInt32.ofNat (decodeNat (stream.take lengthSize))) :=
      encode32_iff.mpr ⟨hsize, rfl⟩
    rw [wrap, hpayload, ← hfront, List.append_assoc, List.take_append_drop, List.take_append_drop]
  · rintro ⟨hlarge, rfl⟩
    have hlength : (wrap payload ++ rest).length = lengthSize + payload.length + rest.length := by
      simp [wrap, lengthSize, Nat.add_assoc]
    have htake : (wrap payload ++ rest).take lengthSize =
        encode32 (UInt32.ofNat payload.length) := rfl
    have hdrop : (wrap payload ++ rest).drop lengthSize = payload ++ rest := rfl
    simp only [next, htake, hdrop, decodeNat_length hlarge]
    rw [if_neg (by omega), if_neg (Nat.not_lt.mpr hlarge), if_neg (by simp), List.take_left,
      List.drop_left]

lemma next_wrap (h : payload.length ≤ limit) (rest : Bytes) :
    next (wrap payload ++ rest) = .frame payload rest :=
  next_eq_frame_iff.mpr ⟨h, rfl⟩

/-- Frames in a row can be told apart, so a front part of a stream consists of the first of them. -/
lemma exists_append_of_flatMap {xs ys : List Bytes} (hxs : ∀ x ∈ xs, x.length ≤ limit)
    (hys : ∀ y ∈ ys, y.length ≤ limit) (h : xs.flatMap wrap ++ rest = ys.flatMap wrap) :
    ∃ zs, ys = xs ++ zs ∧ rest = zs.flatMap wrap := by
  induction xs generalizing ys with
  | nil => exact ⟨ys, rfl, h⟩
  | cons x xs ih =>
      rw [List.forall_mem_cons] at hxs
      have hfront : next (ys.flatMap wrap) = .frame x (xs.flatMap wrap ++ rest) := by
        rw [← h, List.flatMap_cons, List.append_assoc]
        exact next_wrap hxs.1 _
      cases ys with
      | nil => cases hfront
      | cons y ys =>
          rw [List.forall_mem_cons] at hys
          rw [List.flatMap_cons, next_wrap hys.1] at hfront
          injection hfront with hsame hrest
          subst hsame
          obtain ⟨zs, rfl, hzs⟩ := ih hxs.2 hys.2 hrest.symm
          exact ⟨zs, rfl, hzs⟩

/-- A frame that is complete stays as it is when more arrives. -/
lemma next_append_of_frame (h : next stream = .frame payload rest) (more : Bytes) :
    next (stream ++ more) = .frame payload (rest ++ more) := by
  obtain ⟨hlarge, rfl⟩ := next_eq_frame_iff.mp h
  rw [List.append_assoc]
  exact next_wrap hlarge _

lemma next_append_of_oversized (h : next stream = .oversized) (more : Bytes) :
    next (stream ++ more) = .oversized := by
  simp only [next] at h ⊢
  split_ifs at h with hshort hlarge
  have hsize : lengthSize ≤ stream.length := Nat.not_lt.mp hshort
  rw [List.take_append_of_le_length hsize, if_neg, if_pos hlarge]
  rw [List.length_append]
  omega

end Frame

namespace Connection

variable {σ τ : Type} {handle : FrameHandler σ} {handle' : FrameHandler τ} {state : σ} {state' : τ}
  {c : Connection} {payload rest frame : Bytes}

/-! ## One frame after the other -/

lemma serve_of_closed (h : c.isOpen = false) (handle : FrameHandler σ) (state : σ) :
    serve handle c state = (c, state) := by
  rw [serve, if_neg (by simp [h])]

lemma serve_of_incomplete (h : Frame.next c.received = .incomplete) (handle : FrameHandler σ)
    (state : σ) : serve handle c state = (c, state) := by
  rw [serve]
  split_ifs
  · split
    · rfl
    · rename_i hnext
      cases h.symm.trans hnext
    · rename_i hnext
      cases h.symm.trans hnext
  · rfl

lemma serve_of_oversized (hopen : c.isOpen = true) (h : Frame.next c.received = .oversized)
    (handle : FrameHandler σ) (state : σ) : serve handle c state = (c.close, state) := by
  rw [serve, if_pos hopen]
  split
  · rename_i hnext
    cases h.symm.trans hnext
  · rfl
  · rename_i hnext
    cases h.symm.trans hnext

/-- A frame that is taken ends the connection, unless its acknowledgement can be sent. -/
lemma serve_of_frame (hopen : c.isOpen = true) (h : Frame.next c.received = .frame payload rest)
    (handle : FrameHandler σ) (state : σ) :
    serve handle c state =
      match (handle state payload).1.bind fun ack => Frame.encode? ack.toJson.print with
      | none => ({ c with received := rest, isOpen := false }, (handle state payload).2)
      | some frame =>
        serve handle { c with received := rest, unread := c.unread ++ frame }
          (handle state payload).2 := by
  rw [serve, if_pos hopen]
  split
  · rename_i hnext
    cases h.symm.trans hnext
  · rename_i hnext
    cases h.symm.trans hnext
  · rename_i hnext
    cases h.symm.trans hnext
    rfl

/-- The connection when more has arrived. -/
def feed (c : Connection) (more : Bytes) : Connection := { c with received := c.received ++ more }

lemma write_of_isOpen (hopen : c.isOpen = true) (handle : FrameHandler σ) (bytes : Bytes)
    (state : σ) : c.write handle bytes state = serve handle (c.feed bytes) state := if_pos hopen

lemma write_of_closed (hclosed : c.isOpen = false) (handle : FrameHandler σ) (bytes : Bytes)
    (state : σ) : c.write handle bytes state = (c, state) := by
  rw [write, if_neg (by simp [hclosed])]

/-- What arrives later is served as if it had come with the rest, unless the connection has ended
before. -/
theorem serve_append (handle : FrameHandler σ) (c : Connection) (state : σ) (more : Bytes) :
    ((serve handle c state).1.isOpen = true → serve handle (c.feed more) state =
      serve handle ((serve handle c state).1.feed more) (serve handle c state).2) ∧
    ((serve handle c state).1.isOpen = false →
      (serve handle (c.feed more) state).1.isOpen = false ∧
      (serve handle (c.feed more) state).1.unread = (serve handle c state).1.unread ∧
      (serve handle (c.feed more) state).2 = (serve handle c state).2) := by
  induction hn : c.received.length using Nat.strong_induction_on generalizing c state with
  | _ n ih =>
    by_cases hopen : c.isOpen = true
    · have hstill : (c.feed more).isOpen = true := hopen
      cases hfront : Frame.next c.received with
      | incomplete =>
          rw [serve_of_incomplete hfront]
          exact ⟨fun _ => rfl, fun hclosed => absurd (hopen.symm.trans hclosed) (by simp)⟩
      | oversized =>
          have hmore : Frame.next (c.feed more).received = .oversized :=
            Frame.next_append_of_oversized hfront more
          rw [serve_of_oversized hopen hfront, serve_of_oversized hstill hmore]
          exact ⟨fun h => absurd h (by simp [close]), fun _ => ⟨rfl, rfl, rfl⟩⟩
      | frame payload rest =>
          have hmore : Frame.next (c.feed more).received = .frame payload (rest ++ more) :=
            Frame.next_append_of_frame hfront more
          rw [serve_of_frame hopen hfront, serve_of_frame hstill hmore]
          cases (handle state payload).1.bind fun ack => Frame.encode? ack.toJson.print with
          | none => exact ⟨fun h => absurd h (by simp), fun _ => ⟨rfl, rfl, rfl⟩⟩
          | some frame =>
              have hlt : rest.length < n := hn ▸ Frame.length_rest_lt hfront
              exact ih _ hlt { c with received := rest, unread := c.unread ++ frame } _ rfl
    · have hclosed := Bool.eq_false_of_not_eq_true hopen
      have hmore : (c.feed more).isOpen = false := hclosed
      rw [serve_of_closed hclosed, serve_of_closed hmore]
      exact ⟨fun h => absurd h hopen, fun _ => ⟨hclosed, rfl, rfl⟩⟩

/-- The connection before the peer had read some octets of it. -/
def lag (c : Connection) (read : Bytes) : Connection := { c with unread := read ++ c.unread }

/-- It makes no difference to the server when the peer reads. -/
theorem serve_lag (handle : FrameHandler σ) (c : Connection) (read : Bytes) (state : σ) :
    serve handle (c.lag read) state =
      ((serve handle c state).1.lag read, (serve handle c state).2) := by
  induction hn : c.received.length using Nat.strong_induction_on generalizing c state with
  | _ n ih =>
    by_cases hopen : c.isOpen = true
    · have hstill : (c.lag read).isOpen = true := hopen
      cases hfront : Frame.next c.received with
      | incomplete => rw [serve_of_incomplete hfront, serve_of_incomplete (c := c.lag read) hfront]
      | oversized =>
          rw [serve_of_oversized hopen hfront, serve_of_oversized hstill hfront]
          rfl
      | frame payload rest =>
          rw [serve_of_frame hopen hfront, serve_of_frame hstill hfront]
          cases (handle state payload).1.bind fun ack => Frame.encode? ack.toJson.print with
          | none => rfl
          | some frame =>
              have hlt : rest.length < n := hn ▸ Frame.length_rest_lt hfront
              rw [← ih _ hlt { c with received := rest, unread := c.unread ++ frame } _ rfl]
              simp only [lag, List.append_assoc]
    · have hclosed := Bool.eq_false_of_not_eq_true hopen
      rw [serve_of_closed hclosed, serve_of_closed (c := c.lag read) hclosed]

/-! ## Two handlers -/

/-- Handlers that acknowledge alike leave the same connection behind, and what they keep remains
related. -/
theorem serve_congr (Related : σ → τ → Prop)
    (hstep : ∀ state state' payload, Related state state' →
      (handle state payload).1 = (handle' state' payload).1 ∧
        Related (handle state payload).2 (handle' state' payload).2)
    (c : Connection) (hrelated : Related state state') :
    (serve handle c state).1 = (serve handle' c state').1 ∧
      Related (serve handle c state).2 (serve handle' c state').2 := by
  induction hn : c.received.length using Nat.strong_induction_on generalizing c state state' with
  | _ n ih =>
    by_cases hopen : c.isOpen = true
    · cases hfront : Frame.next c.received with
      | incomplete =>
          rw [serve_of_incomplete hfront, serve_of_incomplete hfront]
          exact ⟨rfl, hrelated⟩
      | oversized =>
          rw [serve_of_oversized hopen hfront, serve_of_oversized hopen hfront]
          exact ⟨rfl, hrelated⟩
      | frame payload rest =>
          obtain ⟨hack, hnext⟩ := hstep state state' payload hrelated
          rw [serve_of_frame hopen hfront, serve_of_frame hopen hfront, hack]
          cases (handle' state' payload).1.bind fun ack => Frame.encode? ack.toJson.print with
          | none => exact ⟨rfl, hnext⟩
          | some frame =>
              have hlt : rest.length < n := hn ▸ Frame.length_rest_lt hfront
              exact ih _ hlt _ hnext rfl
    · have hclosed := Bool.eq_false_of_not_eq_true hopen
      rw [serve_of_closed hclosed, serve_of_closed hclosed]
      exact ⟨rfl, hrelated⟩

/-- What every frame preserves is preserved. -/
lemma serve_preserves (Kept : σ → Prop)
    (hstep : ∀ state payload, Kept state → Kept (handle state payload).2) (c : Connection)
    (hkept : Kept state) : Kept (serve handle c state).2 := by
  have hsame := serve_congr (fun state state' => state = state' ∧ Kept state)
    (fun state state' payload h => ⟨congrArg (fun state => (handle state payload).1) h.1,
      congrArg (fun state => (handle state payload).2) h.1, hstep state payload h.2⟩)
    c ⟨rfl, hkept⟩
  exact hsame.2.2

end Connection

end Nameserver
