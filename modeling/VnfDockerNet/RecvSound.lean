import VnfDockerNet.RecvLoop

/-!
# Framing and progress of the receive loop

Framing: after each `recv` the handled frames are the complete ones and the
buffer is the tail. The loop waits either for a header or for the rest of the
frame whose header it has read, so the invariant only speaks of the frames
still to come; a pass either takes the first of them off the buffer or stops.

Progress: a pass that does not stop consumes `msg_len` bytes, so it consumes
none exactly when a complete header in front claims length 0.

The header assertion: whatever the loop waits for, a header in front of the
buffer is either there or the thing waited for.
-/

namespace VnfDockerNet

open Python

/-! ## Headers -/

theorem length_of_header {buf : Bytes} {hdr : Header} (h : header buf = .ok hdr) :
    TFLCP_HEADER_SIZE ≤ buf.length := by
  unfold header at h
  split at h
  · assumption
  · cases h

theorem header_append {buf : Bytes} (h : TFLCP_HEADER_SIZE ≤ buf.length) (rest : Bytes) :
    header (buf ++ rest) = header buf := by
  have h' : TFLCP_HEADER_SIZE ≤ (buf ++ rest).length := by rw [List.length_append]; omega
  have hsize : calcsize TFLCP_HEADER_PACK_STR = TFLCP_HEADER_SIZE := by decide
  unfold header
  rw [if_pos h, if_pos h', unpack_from_longer (by rw [hsize]; omega)]

theorem header_of_starts {f buf : Bytes} (hp : f <+: buf) (h : TFLCP_HEADER_SIZE ≤ f.length) :
    header buf = header f := by
  obtain ⟨rest, rfl⟩ := hp
  exact header_append h rest

/-! ## Framing -/

/-- A frame of a known type whose header tells its own length. -/
def WellFramed (known : Nat → Prop) (f : Bytes) : Prop :=
  f.length ≤ 65535 ∧ ∃ hdr, header f = .ok hdr ∧ hdr.msg_len = f.length ∧ known hdr.msg_type

/-- No handler call for this frame raises. -/
def RecvLoop.Takes {σ : Type} (loop : RecvLoop σ) (f : Bytes) : Prop :=
  ∀ hdr buf app, header f = .ok hdr → f <+: buf → ∃ app', loop.handle hdr buf app = .ok () app'

def CallOf (f : Bytes) (call : Header × Bytes) : Prop := header f = .ok call.1 ∧ f <+: call.2

/-- A strict prefix of the first of the frames, and empty if there is none. -/
def IncompleteTail (tail : Bytes) (frames : List Bytes) : Prop :=
  match frames with
  | [] => tail = []
  | f :: _ => tail <+: f ∧ tail.length < f.length

/-- The frames received so far are handled, and `buf` is what is left of the bytes. -/
def Framed (frames : List Bytes) (received : Bytes) {σ : Type} (c : Conn σ) : Prop :=
  ∃ complete coming, frames = complete ++ coming ∧ received = complete.flatten ++ c.buf ∧
    IncompleteTail c.buf coming ∧ List.Forall₂ CallOf complete c.calls

section
variable {σ : Type} {known : Nat → Prop} {loop : RecvLoop σ}

def WaitsFor (c : Conn σ) : Prop :=
  c.required_len = TFLCP_HEADER_SIZE ∨ ∃ hdr, header c.buf = .ok hdr ∧ c.required_len = hdr.msg_len

theorem header_front {buf f : Bytes} {frames : List Bytes} (hp : buf <+: (f :: frames).flatten)
    (hf : TFLCP_HEADER_SIZE ≤ f.length) (hb : TFLCP_HEADER_SIZE ≤ buf.length) : header buf = header f := by
  have hf' : f <+: (f :: frames).flatten := List.prefix_append f frames.flatten
  rcases List.prefix_or_prefix_of_prefix hf' hp with h | h
  · exact header_of_starts h hf
  · exact (header_of_starts h hb).symm

theorem incomplete_of_lt {buf f : Bytes} {frames : List Bytes} (hp : buf <+: (f :: frames).flatten)
    (hl : buf.length < f.length) : IncompleteTail buf (f :: frames) :=
  ⟨List.prefix_of_prefix_length_le hp (List.prefix_append f frames.flatten) (Nat.le_of_lt hl), hl⟩

theorem pass_waits {c : Conn σ} (h : c.buf.length < c.required_len) : loop.pass c = .recv c := by
  unfold RecvLoop.pass; rw [if_pos h]

theorem pass_partial {c : Conn σ} {hdr : Header} (h : ¬ c.buf.length < c.required_len)
    (hh : header c.buf = .ok hdr) (hl : c.buf.length < hdr.msg_len) :
    loop.pass c = .recv { c with required_len := hdr.msg_len } := by
  unfold RecvLoop.pass; rw [if_neg h, hh]; exact if_pos hl

def Conn.handled (loop : RecvLoop σ) (c : Conn σ) (hdr : Header) (app : σ) : Conn σ :=
  { c with
    app
    calls := c.calls ++ [(hdr, c.buf)]
    buf := c.buf.drop hdr.msg_len
    required_len := TFLCP_HEADER_SIZE
    count := if c.count + 1 > loop.yieldAfter then 0 else c.count + 1 }

theorem pass_handled {c : Conn σ} {hdr : Header} {app : σ} (h : ¬ c.buf.length < c.required_len)
    (hh : header c.buf = .ok hdr) (hl : ¬ c.buf.length < hdr.msg_len)
    (ha : loop.handle hdr c.buf c.app = .ok () app) : loop.pass c = .next (c.handled loop hdr app) := by
  unfold RecvLoop.pass; rw [if_neg h, hh]
  simp only [hl, ite_false, ha]
  rfl

/-- **One run of the inner loop**: it takes the complete frames off the buffer
and goes back to `recv` with the tail. -/
theorem parse_framed : ∀ (frames : List Bytes) (c : Conn σ) (n : Nat),
      (∀ f ∈ frames, WellFramed known f ∧ loop.Takes f) →
      c.buf <+: frames.flatten → WaitsFor c → c.buf.length < n →
      ∃ c' complete coming calls, loop.parse n c = .recv c' ∧ frames = complete ++ coming ∧
        c.buf = complete.flatten ++ c'.buf ∧ IncompleteTail c'.buf coming ∧ WaitsFor c' ∧
        c'.calls = c.calls ++ calls ∧ List.Forall₂ CallOf complete calls ∧ c'.is_active = c.is_active
  | [], c, n + 1, _, hp, hw, _ => by
    have hb : c.buf = [] := by simpa using hp
    have hlt : c.buf.length < c.required_len := by
      rcases hw with hw | ⟨hdr, hh, _⟩
      · rw [hw, hb]; decide
      · have := length_of_header hh; rw [hb] at this; exact absurd this (by decide)
    refine ⟨c, [], [], [], ?_, rfl, rfl, hb, hw, by simp, .nil, rfl⟩
    rw [RecvLoop.parse, pass_waits hlt]
  | f :: frames, c, n + 1, hf, hp, hw, hn => by
    obtain ⟨⟨_, hdr, hhf, hlen, _⟩, htakes⟩ := hf f (List.mem_cons_self ..)
    have hf8 := length_of_header hhf
    by_cases hlt : c.buf.length < c.required_len
    · -- nothing to parse: not even the awaited part of the frame in front is there
      have hshort : c.buf.length < f.length := by
        rcases hw with hw | ⟨hdr', hh', hw⟩
        · omega
        · have := header_front hp hf8 (length_of_header hh')
          rw [hh', hhf] at this
          cases this; omega
      refine ⟨c, [], f :: frames, [], ?_, rfl, rfl, incomplete_of_lt hp hshort, hw, by simp, .nil, rfl⟩
      rw [RecvLoop.parse, pass_waits hlt]
    · have hb8 : TFLCP_HEADER_SIZE ≤ c.buf.length := by
        rcases hw with hw | ⟨_, hh', _⟩
        · omega
        · exact length_of_header hh'
      have hh : header c.buf = .ok hdr := (header_front hp hf8 hb8).trans hhf
      by_cases hshort : c.buf.length < hdr.msg_len
      · refine ⟨{ c with required_len := hdr.msg_len }, [], f :: frames, [], ?_, rfl, rfl,
          incomplete_of_lt hp (hlen ▸ hshort), Or.inr ⟨hdr, hh, rfl⟩, by simp, .nil, rfl⟩
        rw [RecvLoop.parse, pass_partial hlt hh hshort]
      · -- the frame is complete, and the rest of the buffer starts the next ones
        have hfb : f <+: c.buf :=
          List.prefix_of_prefix_length_le (List.prefix_append f frames.flatten) hp (by omega)
        obtain ⟨app, ha⟩ := htakes hdr c.buf c.app hhf hfb
        obtain ⟨buf', hbuf⟩ := hfb
        have hdrop : (c.handled loop hdr app).buf = buf' := by
          show c.buf.drop hdr.msg_len = buf'
          rw [← hbuf, hlen, List.drop_left]
        have hp' : (c.handled loop hdr app).buf <+: frames.flatten := by
          rw [hdrop]
          rw [← hbuf, List.flatten_cons] at hp
          exact (List.prefix_append_right_inj f).mp hp
        have hn' : (c.handled loop hdr app).buf.length < n := by
          have : c.buf.length = f.length + buf'.length := by rw [← hbuf, List.length_append]
          have : 0 < f.length := lt_of_lt_of_le (by decide) hf8
          rw [hdrop]; omega
        obtain ⟨c', complete, coming, calls, hparse, hsplit, hrest, htail, hw', hcalls, hall, hact⟩ :=
          parse_framed frames (c.handled loop hdr app) n (fun g hg => hf g (List.mem_cons_of_mem f hg)) hp'
            (Or.inl rfl) hn'
        refine ⟨c', f :: complete, coming, (hdr, c.buf) :: calls, ?_, by rw [hsplit]; rfl, ?_, htail, hw', ?_,
          .cons ⟨hhf, ⟨buf', hbuf⟩⟩ hall, hact⟩
        · rw [RecvLoop.parse, pass_handled hlt hh hshort ha]; exact hparse
        · rw [List.flatten_cons, List.append_assoc, ← hrest, hdrop, hbuf]
        · rw [hcalls]; simp [Conn.handled]

theorem WaitsFor.receive {c : Conn σ} (hw : WaitsFor c) {ret : Bytes} (hr : ret ≠ []) :
    WaitsFor (c.receive ret) ∧ (c.receive ret).buf = c.buf ++ ret ∧ (c.receive ret).calls = c.calls ∧
      (c.receive ret).is_active = c.is_active := by
  have hl : ret.length ≠ 0 := fun h => hr (List.eq_nil_of_length_eq_zero h)
  unfold Conn.receive
  rw [if_neg hl]
  refine ⟨?_, rfl, rfl, rfl⟩
  rcases hw with hw | ⟨hdr, hh, hw⟩
  · exact Or.inl hw
  · exact Or.inr ⟨hdr, (header_append (length_of_header hh) ret).trans hh, hw⟩

theorem run_framed : ∀ (rets : List Bytes) (c : Conn σ) (frames : List Bytes),
      (∀ ret ∈ rets, ret ≠ []) → c.is_active = true →
      (∀ f ∈ frames, WellFramed known f ∧ loop.Takes f) → WaitsFor c → IncompleteTail c.buf frames →
      c.buf ++ rets.flatten <+: frames.flatten →
      ∃ c' complete coming calls, loop.run c rets = .recv c' ∧ frames = complete ++ coming ∧
        c.buf ++ rets.flatten = complete.flatten ++ c'.buf ∧ IncompleteTail c'.buf coming ∧
        c'.calls = c.calls ++ calls ∧ List.Forall₂ CallOf complete calls
  | [], c, frames, _, _, _, _, ht, _ =>
    ⟨c, [], frames, [], rfl, rfl, by simp, ht, by simp, .nil⟩
  | ret :: rets, c, frames, hne, hact, hf, hw, _, hp => by
    obtain ⟨hw₁, hbuf₁, hcalls₁, hact₁⟩ := hw.receive (hne ret (List.mem_cons_self ..))
    have hp₁ : (c.receive ret).buf <+: frames.flatten := by
      rw [hbuf₁]; refine (List.prefix_append _ rets.flatten).trans ?_
      simpa [List.append_assoc] using hp
    obtain ⟨c₂, complete, coming, calls, hparse, hsplit, hrest, htail, hw₂, hcalls₂, hall, hact₂⟩ :=
      parse_framed frames (c.receive ret) ((c.receive ret).buf.length + 1) hf hp₁ hw₁ (Nat.lt_succ_self _)
    have hp₂ : c₂.buf ++ rets.flatten <+: coming.flatten := by
      rw [List.flatten_cons, ← List.append_assoc, ← hbuf₁, hrest, hsplit, List.flatten_append,
        List.append_assoc] at hp
      exact (List.prefix_append_right_inj _).mp hp
    obtain ⟨c₃, complete', coming', calls', hrun, hsplit', hrest', htail', hcalls₃, hall'⟩ :=
      run_framed rets c₂ coming (fun r hr => hne r (List.mem_cons_of_mem ret hr))
        (by rw [hact₂, hact₁, hact]) (fun f h => hf f (by rw [hsplit]; exact List.mem_append_right _ h)) hw₂ htail hp₂
    refine ⟨c₃, complete ++ complete', coming', calls ++ calls', ?_, by rw [hsplit, hsplit', List.append_assoc], ?_,
      htail', by rw [hcalls₃, hcalls₂, hcalls₁, List.append_assoc], List.rel_append hall hall'⟩
    · have : (c.receive ret).is_active = true := by rw [hact₁, hact]
      simp only [RecvLoop.run, this, ite_true, hparse, hrun]
    · rw [List.flatten_cons, ← List.append_assoc, ← hbuf₁, hrest, List.append_assoc, hrest', List.flatten_append,
        List.append_assoc]

end

theorem run_framed_of_table {σ : Type} {table : Nat → Option (Header → Bytes → EStateM Exn σ Unit)} {loop : RecvLoop σ}
    (hhandle : loop.handle = callHandler table) (app : σ) {frames : List Bytes}
    (hf : ∀ f ∈ frames, WellFramed (fun ty => (table ty).isSome) f)
    (hok : ∀ f ∈ frames, ∀ hdr handler, header f = .ok hdr → table hdr.msg_type = some handler →
      ∀ buf app, f <+: buf → ∃ app', handler hdr buf app = .ok () app')
    {rets : List Bytes} (hne : ∀ ret ∈ rets, ret ≠ []) (hp : rets.flatten <+: frames.flatten) :
    ∃ c, loop.run { app } rets = .recv c ∧ Framed frames rets.flatten c := by
  have htakes : ∀ f ∈ frames, loop.Takes f := by
    intro f hmem hdr buf app hh hbuf
    obtain ⟨_, hdr', hh', _, hknown⟩ := hf f hmem
    have heq : hdr' = hdr := by rw [hh] at hh'; cases hh'; rfl
    subst heq
    obtain ⟨handler, hhandler⟩ := Option.isSome_iff_exists.mp hknown
    rw [hhandle]
    simp only [callHandler, hhandler]
    exact hok f hmem hdr' handler hh hhandler buf app hbuf
  have htail : IncompleteTail [] frames := by
    cases frames with
    | nil => rfl
    | cons f frames =>
      obtain ⟨_, hdr, hh, _, _⟩ := hf f (List.mem_cons_self ..)
      exact ⟨List.nil_prefix, lt_of_lt_of_le (by decide) (length_of_header hh)⟩
  obtain ⟨c, complete, coming, calls, hrun, hsplit, hrest, htail', hcalls, hall⟩ :=
    run_framed rets { app } frames hne rfl (fun f hmem => ⟨hf f hmem, htakes f hmem⟩) (Or.inl rfl) htail
      (by simpa using hp)
  refine ⟨c, hrun, complete, coming, hsplit, by simpa using hrest, htail', ?_⟩
  rw [hcalls]; simpa using hall

/-- **Framing.** However the bytes of well-framed messages are cut into `recv`
results, both loops have handled the complete frames, in order, after each. -/
theorem recv_loop_framing {σ : Type} (table : Nat → Option (Header → Bytes → EStateM Exn σ Unit)) (app : σ)
    (frames : List Bytes) (hf : ∀ f ∈ frames, WellFramed (fun ty => (table ty).isSome) f)
    (hok : ∀ f ∈ frames, ∀ hdr handler, header f = .ok hdr → table hdr.msg_type = some handler →
      ∀ buf app, f <+: buf → ∃ app', handler hdr buf app = .ok () app')
    (rets : List Bytes) (hne : ∀ ret ∈ rets, ret ≠ []) (hp : rets.flatten <+: frames.flatten) :
    (∃ c, (LocalController._recv_loop table).run { app } rets = .recv c ∧ Framed frames rets.flatten c) ∧
      ∃ c, (CentralCtrlAgent._recv_loop table).run { app } rets = .recv c ∧ Framed frames rets.flatten c :=
  ⟨run_framed_of_table (by rfl) app hf hok hne hp, run_framed_of_table (by rfl) app hf hok hne hp⟩

def idleTable {α : Type} (handlers : Nat → Option (Handler α)) :
    Nat → Option (Header → Bytes → EStateM Exn Unit Unit) := handlerTable .little handlers fun _ => pure ()

/-- A HELLO_UP and a BARRIER_REPLY, cut inside both headers. -/
theorem recv_loop_framing_two_frames :
    (∃ c, (LocalController._recv_loop (idleTable Tflc.msg_handler)).run { app := () }
        [[1, 0, 0], [8, 0, 0, 0, 7, 1], [16, 0, 8, 0]] = .recv c ∧
      Framed [[1, 0, 0, 8, 0, 0, 0, 7], [1, 16, 0, 8, 0, 0, 0, 8]] [1, 0, 0, 8, 0, 0, 0, 7, 1, 16, 0, 8, 0] c) ∧
    ∃ c, (CentralCtrlAgent._recv_loop (idleTable Tflc.msg_handler)).run { app := () }
        [[1, 0, 0], [8, 0, 0, 0, 7, 1], [16, 0, 8, 0]] = .recv c ∧
      Framed [[1, 0, 0, 8, 0, 0, 0, 7], [1, 16, 0, 8, 0, 0, 0, 8]] [1, 0, 0, 8, 0, 0, 0, 7, 1, 16, 0, 8, 0] c := by
  refine recv_loop_framing (idleTable Tflc.msg_handler) () [[1, 0, 0, 8, 0, 0, 0, 7], [1, 16, 0, 8, 0, 0, 0, 8]] ?_ ?_
    [[1, 0, 0], [8, 0, 0, 0, 7, 1], [16, 0, 8, 0]] (by decide) (by decide)
  · simp only [List.forall_mem_cons]
    exact ⟨⟨by decide, ⟨1, 0, 8, 7⟩, rfl, rfl, rfl⟩, ⟨by decide, ⟨1, 16, 8, 8⟩, rfl, rfl, rfl⟩, by simp⟩
  · simp only [List.forall_mem_cons]
    refine ⟨?_, ?_, by simp⟩
    all_goals
      intro hdr handler hh hhandler buf app _
      cases hh; cases hhandler
      exact ⟨(), rfl⟩

/-! ## Progress -/

/-- The states in which a pass of the inner loop starts, with the bytes received so far. -/
inductive RecvLoop.AtPass {σ : Type} (loop : RecvLoop σ) (c₀ : Conn σ) : List Bytes → Conn σ → Prop
  | first {ret : Bytes} : ret ≠ [] → loop.AtPass c₀ [ret] (c₀.receive ret)
  | next {rets : List Bytes} {c c' : Conn σ} :
      loop.AtPass c₀ rets c → loop.pass c = .next c' → loop.AtPass c₀ rets c'
  | again {rets : List Bytes} {c c' : Conn σ} {ret : Bytes} :
      loop.AtPass c₀ rets c → loop.pass c = .recv c' → ret ≠ [] → loop.AtPass c₀ (rets ++ [ret]) (c'.receive ret)

structure RecvLoop.Progresses {σ : Type} (loop : RecvLoop σ) (rets : List Bytes) (c : Conn σ) : Prop where
  removes : ∀ c', loop.pass c = .next c' → c'.buf.length < c.buf.length
  ends : ∃ n, loop.parse n c ≠ .spinning
  calls : c.calls.length ≤ rets.flatten.length
  raised : ∀ e c', loop.pass c = .raised e c' → c'.calls.length ≤ rets.flatten.length

/-- A complete header in front claims length 0, and its handler returns. -/
def RecvLoop.Stalled {σ : Type} (loop : RecvLoop σ) (c : Conn σ) : Prop :=
  c.required_len ≤ c.buf.length ∧ ∃ hdr app, header c.buf = .ok hdr ∧ hdr.msg_len = 0 ∧
    loop.handle hdr c.buf c.app = .ok () app

section
variable {σ : Type} {loop : RecvLoop σ} {c₀ : Conn σ}

theorem pass_next {c c' : Conn σ} (h : loop.pass c = .next c') :
    ∃ hdr app, c.required_len ≤ c.buf.length ∧ header c.buf = .ok hdr ∧ hdr.msg_len ≤ c.buf.length ∧
      loop.handle hdr c.buf c.app = .ok () app ∧ c' = c.handled loop hdr app := by
  unfold RecvLoop.pass at h
  split at h
  · cases h
  · rename_i hreq
    split at h
    · cases h
    · rename_i hdr hh
      by_cases hl : c.buf.length < hdr.msg_len
      · simp only [hl, ite_true] at h; cases h
      · simp only [hl, ite_false] at h
        split at h
        · cases h
        · rename_i app ha
          cases h
          exact ⟨hdr, app, by omega, hh, by omega, ha, rfl⟩

theorem pass_recv {c c' : Conn σ} (h : loop.pass c = .recv c') : c'.buf = c.buf ∧ c'.calls = c.calls := by
  unfold RecvLoop.pass at h
  split at h
  · cases h; exact ⟨rfl, rfl⟩
  · split at h
    · cases h
    · rename_i hdr _
      by_cases hl : c.buf.length < hdr.msg_len
      · simp only [hl, ite_true] at h; cases h; exact ⟨rfl, rfl⟩
      · simp only [hl, ite_false] at h
        split at h <;> cases h

theorem pass_raised {c c' : Conn σ} {e : Exn} (h : loop.pass c = .raised e c') :
    c'.calls.length ≤ c.calls.length + c.buf.length := by
  unfold RecvLoop.pass at h
  split at h
  · cases h
  · split at h
    · cases h; exact Nat.le_add_right ..
    · rename_i hdr hh
      have h8 : TFLCP_HEADER_SIZE ≤ c.buf.length := length_of_header hh
      have : 0 < c.buf.length := lt_of_lt_of_le (by decide) h8
      by_cases hl : c.buf.length < hdr.msg_len
      · simp only [hl, ite_true] at h; cases h
      · simp only [hl, ite_false] at h
        split at h
        · cases h; rw [List.length_append, List.length_singleton]; omega
        · cases h

theorem pass_removes {c c' : Conn σ} (hs : ¬ loop.Stalled c) (h : loop.pass c = .next c') :
    c'.buf.length < c.buf.length := by
  obtain ⟨hdr, app, hreq, hh, hl, ha, rfl⟩ := pass_next h
  have hpos : hdr.msg_len ≠ 0 := fun h0 => hs ⟨hreq, hdr, app, hh, h0, ha⟩
  show (c.buf.drop hdr.msg_len).length < c.buf.length
  rw [List.length_drop]; omega

theorem not_removes_of_stalled {c : Conn σ} (hs : loop.Stalled c) :
    ∃ c', loop.pass c = .next c' ∧ c'.buf = c.buf := by
  obtain ⟨hreq, hdr, app, hh, h0, ha⟩ := hs
  refine ⟨c.handled loop hdr app, pass_handled (by omega) hh (by omega) ha, ?_⟩
  show c.buf.drop hdr.msg_len = c.buf
  rw [h0, List.drop_zero]

theorem length_receive (c : Conn σ) {ret : Bytes} (hr : ret ≠ []) :
    (c.receive ret).buf.length = c.buf.length + ret.length ∧ (c.receive ret).calls = c.calls := by
  have hl : ret.length ≠ 0 := fun h => hr (List.eq_nil_of_length_eq_zero h)
  unfold Conn.receive
  rw [if_neg hl]
  exact ⟨List.length_append, rfl⟩

/-- No pass on the way starts with a zero-length header in front. -/
def NeverStalled (loop : RecvLoop σ) (c₀ : Conn σ) (rets : List Bytes) : Prop :=
  ∀ rets' c, rets' <+: rets → loop.AtPass c₀ rets' c → ¬ loop.Stalled c

theorem calls_add_buf_le {rets : List Bytes} {c : Conn σ} (h : loop.AtPass c₀ rets c)
    (hn : NeverStalled loop c₀ rets) (hc₀ : c₀.calls = [] ∧ c₀.buf = []) :
    c.calls.length + c.buf.length ≤ rets.flatten.length := by
  induction h with
  | first hr =>
    rw [(length_receive c₀ hr).1, (length_receive c₀ hr).2, hc₀.1, hc₀.2]
    simp
  | @next rets c c' hc hp ih =>
    have hlt := pass_removes (hn _ _ (List.prefix_refl _) hc) hp
    obtain ⟨hdr, app, _, _, _, _, rfl⟩ := pass_next hp
    have hcalls : (c.handled loop hdr app).calls.length = c.calls.length + 1 := List.length_append
    have := ih hn
    omega
  | @again rets c c' ret hc hp hr ih =>
    obtain ⟨hbuf, hcalls⟩ := pass_recv hp
    have := ih fun rets' c'' hpre => hn rets' c'' (hpre.trans (List.prefix_append ..))
    rw [(length_receive _ hr).1, (length_receive _ hr).2, hbuf, hcalls, List.flatten_append, List.length_append]
    simp only [List.flatten_cons, List.flatten_nil, List.append_nil]
    omega

theorem parse_ends {rets : List Bytes} (hn : NeverStalled loop c₀ rets) :
    ∀ (n : Nat) (c : Conn σ), loop.AtPass c₀ rets c → c.buf.length < n → loop.parse n c ≠ .spinning
  | n + 1, c, hc, hlt => by
    rw [RecvLoop.parse]
    cases hp : loop.pass c with
    | recv c' => simp
    | raised e c' => simp
    | next c' =>
      have hrem := pass_removes (hn _ _ (List.prefix_refl _) hc) hp
      exact parse_ends hn n c' (.next hc hp) (by omega)

def RecvLoop.AlwaysProgresses (loop : RecvLoop σ) (c₀ : Conn σ) (rets : List Bytes) : Prop :=
  ∀ rets' c, rets' <+: rets → loop.AtPass c₀ rets' c → loop.Progresses rets' c

theorem alwaysProgresses_iff {rets : List Bytes} (hc₀ : c₀.calls = [] ∧ c₀.buf = []) :
    loop.AlwaysProgresses c₀ rets ↔ NeverStalled loop c₀ rets := by
  constructor
  · intro hprog rets' c hpre hc hs
    obtain ⟨c', hp, hbuf⟩ := not_removes_of_stalled hs
    have := (hprog rets' c hpre hc).removes c' hp
    rw [hbuf] at this
    exact lt_irrefl _ this
  · intro hn rets' c hpre hc
    have hn' : NeverStalled loop c₀ rets' := fun rets'' c' hpre' => hn rets'' c' (hpre'.trans hpre)
    have hle := calls_add_buf_le hc hn' hc₀
    refine ⟨fun c' hp => pass_removes (hn rets' c hpre hc) hp, ⟨_, parse_ends hn' _ c hc (Nat.lt_succ_self _)⟩,
      by omega, fun e c' hp => ?_⟩
    exact le_trans (pass_raised hp) hle

/-- **Progress.** On any bytes, both loops shorten the buffer in every pass,
and so come back to `recv` after no more calls than bytes, exactly if no pass
starts with a header in front whose `msg_len` is 0 and whose handler returns. -/
theorem recv_loop_progress_iff (table : Nat → Option (Header → Bytes → EStateM Exn σ Unit)) (app : σ)
    (rets : List Bytes) :
    ((LocalController._recv_loop table).AlwaysProgresses { app } rets ↔
      NeverStalled (LocalController._recv_loop table) { app } rets) ∧
    ((CentralCtrlAgent._recv_loop table).AlwaysProgresses { app } rets ↔
      NeverStalled (CentralCtrlAgent._recv_loop table) { app } rets) :=
  ⟨alwaysProgresses_iff ⟨rfl, rfl⟩, alwaysProgresses_iff ⟨rfl, rfl⟩⟩

/-- One `recv` of these bytes, and the inner loop never ends. -/
structure RecvLoop.SpinsOn (loop : RecvLoop σ) (app : σ) (ret : Bytes) : Prop where
  reached : loop.AtPass { app } [ret] { buf := ret, app }
  stuck : ¬ loop.Progresses [ret] { buf := ret, app }
  spins : ∀ n, loop.parse n { buf := ret, app } = .spinning

theorem spinsOn_zero_length {loop : RecvLoop Unit}
    (hhandle : loop.handle ⟨1, 0, 0, 0⟩ [1, 0, 0, 0, 0, 0, 0, 0] () = .ok () ()) :
    loop.SpinsOn () [1, 0, 0, 0, 0, 0, 0, 0] := by
  have hspin : ∀ n (c : Conn Unit), c.buf = [1, 0, 0, 0, 0, 0, 0, 0] → c.required_len = TFLCP_HEADER_SIZE →
      loop.parse n c = .spinning := by
    intro n
    induction n with
    | zero => intro c _ _; rfl
    | succ n ih =>
      intro c hbuf hreq
      have hp : loop.pass c = .next (c.handled loop ⟨1, 0, 0, 0⟩ ()) :=
        pass_handled (by rw [hbuf, hreq]; decide) (by rw [hbuf]; rfl) (by rw [hbuf]; decide)
          (by rw [hbuf]; exact hhandle)
      rw [RecvLoop.parse, hp]
      exact ih _ (by show List.drop _ c.buf = _; rw [hbuf]; rfl) rfl
  have hfirst : loop.AtPass { app := () } [[1, 0, 0, 0, 0, 0, 0, 0]]
      (Conn.receive { app := () } [1, 0, 0, 0, 0, 0, 0, 0]) := .first (by decide)
  refine ⟨hfirst, fun hprog => ?_, fun n => hspin n _ rfl rfl⟩
  obtain ⟨n, hn⟩ := hprog.ends
  exact hn (hspin n _ rfl rfl)

end

/-- On a HELLO_UP header with length 0 both programs handle the same eight bytes for ever. -/
theorem recv_loop_zero_length_spins :
    (LocalController._recv_loop (idleTable Tflc.msg_handler)).SpinsOn () [1, 0, 0, 0, 0, 0, 0, 0] ∧
      (CentralCtrlAgent._recv_loop (idleTable CcClient.msg_handler)).SpinsOn () [1, 0, 0, 0, 0, 0, 0, 0] :=
  ⟨spinsOn_zero_length (by rfl), spinsOn_zero_length (by rfl)⟩

/-! ## The header assertion -/

section
variable {σ : Type} {loop : RecvLoop σ} {c₀ : Conn σ}

/-- The states in which the loop calls `recv`, with what earlier calls returned. -/
inductive RecvLoop.AtRecv (loop : RecvLoop σ) (c₀ : Conn σ) : List Bytes → Conn σ → Prop
  | first : loop.AtRecv c₀ [] c₀
  | back {rets : List Bytes} {c c' : Conn σ} :
      loop.AtPass c₀ rets c → loop.pass c = .recv c' → loop.AtRecv c₀ rets c'

/-- Part of a header is there, or part of the frame in front, whose `msg_len` is above 8. -/
def Awaits (c : Conn σ) : Prop :=
  c.required_len = 8 ∧ c.buf.length < 8 ∨
    ∃ hdr, header c.buf = .ok hdr ∧ c.required_len = hdr.msg_len ∧ 8 < hdr.msg_len ∧ c.buf.length < hdr.msg_len

/-- The buffer holds a header wherever one is read, and more is awaited wherever `recv` is called. -/
structure RecvLoop.HeaderSafe (loop : RecvLoop σ) (c₀ : Conn σ) : Prop where
  header : ∀ rets c, loop.AtPass c₀ rets c → c.required_len ≤ c.buf.length →
    TFLCP_HEADER_SIZE ≤ c.buf.length ∧ header c.buf ≠ .error .AssertionError
  recv : ∀ rets c, loop.AtRecv c₀ rets c → Awaits c ∧ 0 < c.required_len

theorem pass_recv_waits {c c' : Conn σ} (hw : WaitsFor c) (h : loop.pass c = .recv c') :
    WaitsFor c' ∧ c'.buf.length < c'.required_len := by
  unfold RecvLoop.pass at h
  split at h
  · rename_i hreq
    cases h
    exact ⟨hw, hreq⟩
  · split at h
    · cases h
    · rename_i hdr hh
      by_cases hl : c.buf.length < hdr.msg_len
      · simp only [hl, ite_true] at h
        cases h
        exact ⟨Or.inr ⟨hdr, hh, rfl⟩, hl⟩
      · simp only [hl, ite_false] at h
        split at h <;> cases h

theorem waits_atPass (h₀ : WaitsFor c₀) {rets : List Bytes} {c : Conn σ} (h : loop.AtPass c₀ rets c) : WaitsFor c := by
  induction h with
  | first hr => exact (h₀.receive hr).1
  | next _ hp _ =>
    obtain ⟨hdr, app, _, _, _, _, rfl⟩ := pass_next hp
    exact Or.inl rfl
  | again _ hp hr ih => exact ((pass_recv_waits ih hp).1.receive hr).1

/-- A length of at most 8 is never waited for: the header it came from is already there. -/
theorem WaitsFor.awaits {c : Conn σ} (hw : WaitsFor c) (hl : c.buf.length < c.required_len) : Awaits c := by
  rcases hw with hw | ⟨hdr, hh, hw⟩
  · have h8 : TFLCP_HEADER_SIZE = 8 := rfl
    rw [hw, h8] at hl
    exact Or.inl ⟨hw, hl⟩
  · have h8 : 8 ≤ c.buf.length := length_of_header hh
    rw [hw] at hl
    exact Or.inr ⟨hdr, hh, hw, by omega, hl⟩

theorem Awaits.pos {c : Conn σ} (h : Awaits c) : 0 < c.required_len := by
  rcases h with ⟨hreq, _⟩ | ⟨hdr, _, hreq, hlen, _⟩
  · omega
  · omega

theorem WaitsFor.headerThere {c : Conn σ} (hw : WaitsFor c) (hl : c.required_len ≤ c.buf.length) :
    TFLCP_HEADER_SIZE ≤ c.buf.length := by
  rcases hw with hw | ⟨hdr, hh, _⟩
  · rw [← hw]
    exact hl
  · exact length_of_header hh

theorem header_asserted {buf : Bytes} (h : TFLCP_HEADER_SIZE ≤ buf.length) : header buf ≠ .error .AssertionError := by
  unfold header
  rw [if_pos h]
  split
  · simp
  · simp

theorem headerSafe (hw₀ : WaitsFor c₀) (hl₀ : c₀.buf.length < c₀.required_len) : loop.HeaderSafe c₀ := by
  have hrecv : ∀ rets c, loop.AtRecv c₀ rets c → Awaits c := by
    intro rets c h
    cases h with
    | first => exact hw₀.awaits hl₀
    | back hc hp =>
      obtain ⟨hw, hl⟩ := pass_recv_waits (waits_atPass hw₀ hc) hp
      exact hw.awaits hl
  refine ⟨fun rets c hc hreq => ?_, fun rets c hc => ⟨hrecv rets c hc, (hrecv rets c hc).pos⟩⟩
  have h8 := (waits_atPass hw₀ hc).headerThere hreq
  exact ⟨h8, header_asserted h8⟩

/-- **The header assertion.** On any bytes in any chunks, both loops read a header
only where there is one, and ask `recv` only for bytes they lack. -/
theorem recv_loop_header_safe (table : Nat → Option (Header → Bytes → EStateM Exn σ Unit)) (app : σ) :
    (LocalController._recv_loop table).HeaderSafe { app } ∧ (CentralCtrlAgent._recv_loop table).HeaderSafe { app } := by
  have hw₀ : WaitsFor ({ app } : Conn σ) := Or.inl rfl
  have hl₀ : ({ app } : Conn σ).buf.length < ({ app } : Conn σ).required_len := Nat.zero_lt_succ 7
  exact ⟨headerSafe hw₀ hl₀, headerSafe hw₀ hl₀⟩

end

end VnfDockerNet
