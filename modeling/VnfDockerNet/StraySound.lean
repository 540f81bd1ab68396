import VnfDockerNet.RecvSound

/-!
# Frames that are not for the receiver

A run is compared with the one in which the bytes of the frame were not sent.
The two are alike pass by pass: they differ in the one call for the frame, and
in when they yield. At the central controller that call raises.
-/

namespace VnfDockerNet

open Python

/-- The types marked `# up` in both handler tables. -/
def UpType (msg_type : Nat) : Prop := msg_type ∈ [0, 2, 4, 6, 8, 11, 13, 14, 16, 17, 18, 19, 20]

/-- The types marked `# down`. -/
def DownType (msg_type : Nat) : Prop := msg_type ∈ [1, 3, 5, 7, 9, 10, 12, 15, 21]

instance (msg_type : Nat) : Decidable (UpType msg_type) := inferInstanceAs (Decidable (_ ∈ _))
instance (msg_type : Nat) : Decidable (DownType msg_type) := inferInstanceAs (Decidable (_ ∈ _))

/-! ## The end of a run -/

/-- How the loop ends on these `recv` results, from the start of a pass. -/
inductive RecvLoop.Ends {σ : Type} (loop : RecvLoop σ) : Conn σ → List Bytes → Outcome σ → Prop
  | waits {c c' : Conn σ} : loop.pass c = .recv c' → loop.Ends c [] (.recv c')
  | dropped {c c' : Conn σ} {rets : List Bytes} :
      loop.pass c = .recv c' → loop.Ends c ([] :: rets) (.recv { c' with is_active := false })
  | again {c c' : Conn σ} {ret : Bytes} {rets : List Bytes} {out : Outcome σ} :
      loop.pass c = .recv c' → ret ≠ [] → loop.Ends (c'.receive ret) rets out → loop.Ends c (ret :: rets) out
  | next {c c' : Conn σ} {rets : List Bytes} {out : Outcome σ} :
      loop.pass c = .next c' → loop.Ends c' rets out → loop.Ends c rets out
  | raised {c c' : Conn σ} {rets : List Bytes} {e : Exn} :
      loop.pass c = .raised e c' → loop.Ends c rets (.raised e { c' with is_active := false })

section
variable {σ : Type} {loop : RecvLoop σ} {c c' : Conn σ} {rets : List Bytes} {out : Outcome σ}

theorem ends_next_iff (h : loop.pass c = .next c') : loop.Ends c rets out ↔ loop.Ends c' rets out := by
  constructor
  · intro hc
    cases hc with
    | next hp hn => rw [h] at hp; cases hp; exact hn
    | waits hp | dropped hp | again hp | raised hp => rw [h] at hp; cases hp
  · exact .next h

theorem ends_recv_iff (h : loop.pass c = .recv c') {ret : Bytes} (hr : ret ≠ []) :
    loop.Ends c (ret :: rets) out ↔ loop.Ends (c'.receive ret) rets out := by
  constructor
  · intro hc
    cases hc with
    | again hp _ hn => rw [h] at hp; cases hp; exact hn
    | dropped hp => exact absurd rfl hr
    | next hp | raised hp => rw [h] at hp; cases hp
  · exact .again h hr

theorem receive_ne {ret : Bytes} (hr : ret ≠ []) (c : Conn σ) : c.receive ret = { c with buf := c.buf ++ ret } := by
  unfold Conn.receive
  rw [if_neg fun h => hr (List.eq_nil_of_length_eq_zero h)]

end

/-! ## Runs that are alike -/

/-- The connections differ in the calls of the past, and in when they yield. -/
structure Conn.Alike {σ : Type} (A B : List (Header × Bytes)) (c c' : Conn σ) : Prop where
  buf : c'.buf = c.buf
  required_len : c'.required_len = c.required_len
  is_active : c'.is_active = c.is_active
  app : c'.app = c.app
  calls : ∃ more, c.calls = A ++ more ∧ c'.calls = B ++ more

def Pass.Alike {σ : Type} (A B : List (Header × Bytes)) : Pass σ → Pass σ → Prop
  | .recv c, .recv c' => c.Alike A B c'
  | .next c, .next c' => c.Alike A B c'
  | .raised e c, .raised e' c' => e' = e ∧ c.Alike A B c'
  | _, _ => False

def Outcome.Alike {σ : Type} (A B : List (Header × Bytes)) : Outcome σ → Outcome σ → Prop
  | .recv c, .recv c' => c.Alike A B c'
  | .raised e c, .raised e' c' => e' = e ∧ c.Alike A B c'
  | _, _ => False

section
variable {σ : Type} {loop : RecvLoop σ} {A B : List (Header × Bytes)} {c c' : Conn σ}

theorem Conn.Alike.symm (h : c.Alike A B c') : c'.Alike B A c := by
  obtain ⟨more, hA, hB⟩ := h.calls
  exact ⟨h.buf.symm, h.required_len.symm, h.is_active.symm, h.app.symm, more, hB, hA⟩

theorem Outcome.Alike.symm {out out' : Outcome σ} (h : out.Alike A B out') : out'.Alike B A out := by
  cases out with
  | recv c => cases out' with
    | recv c' => exact Conn.Alike.symm h
    | raised _ _ | spinning => exact h.elim
  | raised e c => cases out' with
    | raised e' c' => exact ⟨h.1.symm, h.2.symm⟩
    | recv _ | spinning => exact h.elim
  | spinning => exact h.elim

theorem Conn.Alike.inactive (h : c.Alike A B c') :
    Conn.Alike A B { c with is_active := false } { c' with is_active := false } :=
  ⟨h.buf, h.required_len, rfl, h.app, h.calls⟩

theorem Conn.Alike.receive (h : c.Alike A B c') (ret : Bytes) : (c.receive ret).Alike A B (c'.receive ret) := by
  unfold Conn.receive
  by_cases hr : ret.length = 0
  · rw [if_pos hr, if_pos hr]
    exact h.inactive
  · rw [if_neg hr, if_neg hr]
    exact ⟨by rw [h.buf], h.required_len, h.is_active, h.app, h.calls⟩

theorem Conn.Alike.snoc (h : c.Alike A B c') (call : Header × Bytes) :
    ∃ more, c.calls ++ [call] = A ++ more ∧ c'.calls ++ [call] = B ++ more := by
  obtain ⟨more, hA, hB⟩ := h.calls
  exact ⟨more ++ [call], by rw [hA, List.append_assoc], by rw [hB, List.append_assoc]⟩

theorem alike_pass (h : c.Alike A B c') : (loop.pass c).Alike A B (loop.pass c') := by
  unfold RecvLoop.pass
  rw [h.buf, h.required_len]
  by_cases hreq : c.buf.length < c.required_len
  · rw [if_pos hreq, if_pos hreq]
    exact h
  · rw [if_neg hreq, if_neg hreq]
    cases hh : header c.buf with
    | error e => exact ⟨rfl, h⟩
    | ok hdr =>
      by_cases hl : c.buf.length < hdr.msg_len
      · simp only [hl, if_true]
        exact ⟨rfl, rfl, h.is_active, h.app, h.calls⟩
      · simp only [hl, if_false, h.app]
        cases hx : loop.handle hdr c.buf c.app with
        | error e app => exact ⟨rfl, rfl, rfl, h.is_active, rfl, h.snoc _⟩
        | ok _ app => exact ⟨rfl, rfl, h.is_active, rfl, h.snoc _⟩

theorem alike_of_pass (h : c.Alike A B c') {p : Pass σ} (hp : loop.pass c = p) : ∃ p', loop.pass c' = p' ∧ p.Alike A B p' :=
  ⟨_, rfl, hp ▸ alike_pass h⟩

theorem ends_alike {rets : List Bytes} {out : Outcome σ} (hends : loop.Ends c rets out) :
    ∀ c', c.Alike A B c' → ∃ out', loop.Ends c' rets out' ∧ out.Alike A B out' := by
  induction hends with
  | waits hp =>
    intro c' h
    obtain ⟨p', hp', hal⟩ := alike_of_pass h hp
    cases p' with
    | recv d' => exact ⟨_, .waits hp', hal⟩
    | next _ | raised _ _ => exact hal.elim
  | dropped hp =>
    intro c' h
    obtain ⟨p', hp', hal⟩ := alike_of_pass h hp
    cases p' with
    | recv d' => exact ⟨_, .dropped hp', Conn.Alike.inactive hal⟩
    | next _ | raised _ _ => exact hal.elim
  | again hp hr _ ih =>
    intro c' h
    obtain ⟨p', hp', hal⟩ := alike_of_pass h hp
    cases p' with
    | recv d' =>
      obtain ⟨out', hout', halike⟩ := ih _ (Conn.Alike.receive hal _)
      exact ⟨out', .again hp' hr hout', halike⟩
    | next _ | raised _ _ => exact hal.elim
  | next hp _ ih =>
    intro c' h
    obtain ⟨p', hp', hal⟩ := alike_of_pass h hp
    cases p' with
    | next d' =>
      obtain ⟨out', hout', halike⟩ := ih _ hal
      exact ⟨out', .next hp' hout', halike⟩
    | recv _ | raised _ _ => exact hal.elim
  | raised hp =>
    intro c' h
    obtain ⟨p', hp', hal⟩ := alike_of_pass h hp
    cases p' with
    | raised e' d' =>
      obtain ⟨rfl, hal⟩ := hal
      exact ⟨_, .raised hp', rfl, hal.inactive⟩
    | recv _ | next _ => exact hal.elim

end

/-! ## Without the frame -/

/-- The `recv` results without their first `k` bytes. -/
def dropBytes : Nat → List Bytes → List Bytes
  | _, [] => []
  | k, ret :: rets => if k < ret.length then ret.drop k :: rets else dropBytes (k - ret.length) rets

theorem dropBytes_cons (k : Nat) (ret : Bytes) (rets : List Bytes) : dropBytes k (ret :: rets) =
    if k < ret.length then ret.drop k :: rets else dropBytes (k - ret.length) rets := rfl

theorem dropBytes_zero {rets : List Bytes} (hne : ∀ ret ∈ rets, ret ≠ []) : dropBytes 0 rets = rets := by
  cases rets with
  | nil => rfl
  | cons ret rets =>
    rw [dropBytes_cons, if_pos (List.length_pos_of_ne_nil (hne ret List.mem_cons_self)), List.drop_zero]

/-- Both runs end, and alike, or neither does. -/
def RecvLoop.SameEnds {σ : Type} (loop : RecvLoop σ) (A B : List (Header × Bytes)) (c : Conn σ) (rets : List Bytes)
    (c' : Conn σ) (rets' : List Bytes) : Prop :=
  (∀ out, loop.Ends c rets out → ∃ out', loop.Ends c' rets' out' ∧ out.Alike A B out') ∧
    ∀ out', loop.Ends c' rets' out' → ∃ out, loop.Ends c rets out ∧ out.Alike A B out'

/-- The frame in front is skipped: its handler returns and has changed nothing, and
the run goes on as if the frame's bytes had not been sent. -/
def RecvLoop.Skips {σ : Type} (loop : RecvLoop σ) (f : Bytes) (c : Conn σ) (rets later : List Bytes) : Prop :=
  ∃ hdr buf, CallOf f (hdr, buf) ∧ loop.handle hdr buf c.app = .ok () c.app ∧
    loop.SameEnds (c.calls ++ [(hdr, buf)]) c.calls c (rets ++ later)
      { c with buf := c.buf.drop f.length } (dropBytes (f.length - c.buf.length) rets ++ later)

section
variable {σ : Type} {loop : RecvLoop σ} {f : Bytes} {hdr : Header}

theorem pass_part (hh : header f = .ok hdr) (hlen : hdr.msg_len = f.length) {d : Conn σ} (hd : d.buf <+: f)
    (hshort : d.buf.length < f.length) (hreq : d.required_len = TFLCP_HEADER_SIZE ∨ d.required_len = f.length) :
    ∃ n, loop.pass d = .recv { d with required_len := n } ∧ (n = TFLCP_HEADER_SIZE ∨ n = f.length) := by
  by_cases hwait : d.buf.length < d.required_len
  · exact ⟨d.required_len, pass_waits hwait, hreq⟩
  · have hlong : TFLCP_HEADER_SIZE ≤ d.buf.length := by omega
    have hhd : header d.buf = .ok hdr := (header_of_starts hd hlong).symm.trans hh
    exact ⟨hdr.msg_len, pass_partial hwait hhd (by omega), .inr hlen⟩

theorem pass_whole (hh : header f = .ok hdr) (hlen : hdr.msg_len = f.length) {d : Conn σ} (hd : f <+: d.buf)
    (hreq : d.required_len = TFLCP_HEADER_SIZE ∨ d.required_len = f.length)
    (hignored : loop.handle hdr d.buf d.app = .ok () d.app) : loop.pass d = .next (d.handled loop hdr d.app) := by
  have hf8 : TFLCP_HEADER_SIZE ≤ f.length := length_of_header hh
  have hle : f.length ≤ d.buf.length := hd.length_le
  exact pass_handled (by omega) ((header_of_starts hd hf8).trans hh) (by omega) hignored

def Conn.without (f : Bytes) (d : Conn σ) : Conn σ :=
  { d with buf := d.buf.drop f.length, required_len := TFLCP_HEADER_SIZE }

theorem ends_without_iff {d : Conn σ} (hshort : d.buf.length < f.length) {n : Nat} {ret : Bytes} {rets later : List Bytes}
    (hne : ∀ r ∈ ret :: rets, r ≠ []) (out : Outcome σ) :
    loop.Ends (d.without f) (dropBytes (f.length - d.buf.length) (ret :: rets) ++ later) out ↔
      loop.Ends ((Conn.receive { d with required_len := n } ret).without f)
        (dropBytes (f.length - (d.buf ++ ret).length) rets ++ later) out := by
  have hnil : d.buf.drop f.length = [] := List.drop_eq_nil_of_le (Nat.le_of_lt hshort)
  rw [receive_ne (hne ret List.mem_cons_self), List.length_append, dropBytes_cons]
  by_cases hmore : f.length - d.buf.length < ret.length
  · have hrest : ret.drop (f.length - d.buf.length) ≠ [] := fun h => by
      have := List.drop_eq_nil_iff.mp h
      omega
    have hempty : (d.buf.drop f.length).length < TFLCP_HEADER_SIZE := by rw [hnil]; decide
    have hwait : loop.pass (d.without f) = .recv (d.without f) := pass_waits hempty
    have hzero : f.length - (d.buf.length + ret.length) = 0 := by omega
    have hdrop : (d.buf ++ ret).drop f.length = ret.drop (f.length - d.buf.length) := by rw [List.drop_append, hnil, List.nil_append]
    rw [if_pos hmore, List.cons_append, ends_recv_iff hwait hrest, receive_ne hrest, hzero,
      dropBytes_zero fun r hr => hne r (List.mem_cons_of_mem _ hr)]
    unfold Conn.without
    rw [hdrop, hnil, List.nil_append]
  · have hle : (d.buf ++ ret).length ≤ f.length := by rw [List.length_append]; omega
    rw [if_neg hmore, Nat.sub_sub]
    unfold Conn.without
    rw [List.drop_eq_nil_of_le hle, hnil]

/-- **The frame is passed**: once its last byte has come, the run is alike to that without it. -/
theorem frame_passed (hh : header f = .ok hdr) (hlen : hdr.msg_len = f.length) {app : σ}
    (hignored : ∀ buf, f <+: buf → loop.handle hdr buf app = .ok () app) :
    ∀ (rets : List Bytes) (d : Conn σ), (∀ ret ∈ rets, ret ≠ []) → f <+: d.buf ++ rets.flatten → d.app = app →
      (d.required_len = TFLCP_HEADER_SIZE ∨ d.required_len = f.length) →
      ∃ buf d₁ e₁ rest, CallOf f (hdr, buf) ∧ Conn.Alike (d.calls ++ [(hdr, buf)]) d.calls d₁ e₁ ∧ ∀ later out,
        (loop.Ends d (rets ++ later) out ↔ loop.Ends d₁ (rest ++ later) out) ∧
        (loop.Ends (d.without f) (dropBytes (f.length - d.buf.length) rets ++ later) out ↔
          loop.Ends e₁ (rest ++ later) out) := by
  have hwhole : ∀ (rets : List Bytes) (d : Conn σ), (∀ ret ∈ rets, ret ≠ []) → f <+: d.buf → d.app = app →
      (d.required_len = TFLCP_HEADER_SIZE ∨ d.required_len = f.length) →
      ∃ buf d₁ e₁ rest, CallOf f (hdr, buf) ∧ Conn.Alike (d.calls ++ [(hdr, buf)]) d.calls d₁ e₁ ∧ ∀ later out,
        (loop.Ends d (rets ++ later) out ↔ loop.Ends d₁ (rest ++ later) out) ∧
        (loop.Ends (d.without f) (dropBytes (f.length - d.buf.length) rets ++ later) out ↔
          loop.Ends e₁ (rest ++ later) out) := by
    intro rets d hne hd happ hreq
    have hnext := pass_whole hh hlen hd hreq (by rw [happ]; exact hignored _ hd)
    refine ⟨d.buf, d.handled loop hdr d.app, d.without f, rets, ⟨hh, hd⟩, ?_, fun later out => ⟨ends_next_iff hnext, ?_⟩⟩
    · exact ⟨by unfold Conn.without Conn.handled; rw [hlen], rfl, rfl, rfl, [], (List.append_nil _).symm, (List.append_nil _).symm⟩
    · rw [Nat.sub_eq_zero_of_le hd.length_le, dropBytes_zero hne]
  intro rets
  induction rets with
  | nil =>
    intro d hne hf happ hreq
    rw [List.flatten_nil, List.append_nil] at hf
    exact hwhole [] d hne hf happ hreq
  | cons ret rets ih =>
    intro d hne hf happ hreq
    by_cases hshort : d.buf.length < f.length
    · have hd : d.buf <+: f := List.prefix_of_prefix_length_le (List.prefix_append _ _) hf (Nat.le_of_lt hshort)
      obtain ⟨n, hwait, hn⟩ := @pass_part σ loop f hdr hh hlen d hd hshort hreq
      have hr := hne ret List.mem_cons_self
      have hreceive := receive_ne hr { d with required_len := n }
      have hrest := ih (Conn.receive { d with required_len := n } ret) (fun r hr => hne r (List.mem_cons_of_mem _ hr))
      rw [hreceive] at hrest
      obtain ⟨buf, d₁, e₁, rest, hcall, halike, hends⟩ := hrest (by simpa using hf) happ hn
      refine ⟨buf, d₁, e₁, rest, hcall, halike, fun later out => ⟨?_, ?_⟩⟩
      · rw [List.cons_append, ends_recv_iff hwait hr, hreceive]
        exact (hends later out).1
      · rw [@ends_without_iff σ loop f d hshort n ret rets later hne out, hreceive]
        exact (hends later out).2
    · have hd : f <+: d.buf := List.prefix_of_prefix_length_le hf (List.prefix_append _ _) (by omega)
      exact hwhole _ d hne hd happ hreq

theorem skips_of_ignored (hh : header f = .ok hdr) (hlen : hdr.msg_len = f.length) {c : Conn σ}
    (hreq : c.required_len = TFLCP_HEADER_SIZE) {rets : List Bytes} (later : List Bytes) (hne : ∀ ret ∈ rets, ret ≠ [])
    (hf : f <+: c.buf ++ rets.flatten) (hignored : ∀ buf, f <+: buf → loop.handle hdr buf c.app = .ok () c.app) :
    loop.Skips f c rets later := by
  obtain ⟨buf, d₁, e₁, rest, hcall, halike, hends⟩ := frame_passed hh hlen hignored rets c hne hf rfl (.inl hreq)
  have hwithout : c.without f = { c with buf := c.buf.drop f.length } := by unfold Conn.without; rw [← hreq]
  rw [hwithout] at hends
  refine ⟨hdr, buf, hcall, hignored buf hcall.2, fun out hout => ?_, fun out' hout' => ?_⟩
  · obtain ⟨out', hout', h⟩ := ends_alike ((hends later out).1.mp hout) e₁ halike
    exact ⟨out', (hends later out').2.mpr hout', h⟩
  · obtain ⟨out, hout, h⟩ := ends_alike ((hends later out').2.mp hout') d₁ halike.symm
    exact ⟨out, (hends later out).1.mpr hout, h.symm⟩

theorem not_skips_of_raises (hh : header f = .ok hdr) {c : Conn σ} {rets later : List Bytes} {e : Exn}
    (hraises : ∀ buf, loop.handle hdr buf c.app = .error e c.app) : ¬ loop.Skips f c rets later := by
  intro h
  obtain ⟨hdr', buf, hcall, hok, _⟩ := h
  have he : hdr' = hdr := by
    have := hcall.1.symm.trans hh
    cases this
    rfl
  rw [he, hraises] at hok
  cases hok

end

/-! ## The two sides -/

theorem Tflc.msg_handler_stray {msg_type : Nat} (h : ¬ UpType msg_type) :
    Tflc.msg_handler msg_type = some Tflc.downlinkStub ∨ Tflc.msg_handler msg_type = none := by
  unfold Tflc.msg_handler
  split <;> first
    | exact .inl rfl
    | exact .inr rfl
    | exact absurd (by decide) h

theorem CcClient.msg_handler_uplink {msg_type : Nat} (h : UpType msg_type) :
    CcClient.msg_handler msg_type = some CcClient.uplinkStub := by
  simp only [UpType, List.mem_cons, List.not_mem_nil, or_false] at h
  rcases h with rfl | rfl | rfl | rfl | rfl | rfl | rfl | rfl | rfl | rfl | rfl | rfl | rfl <;> rfl

theorem CcClient.msg_handler_unknown {msg_type : Nat} (hup : ¬ UpType msg_type) (hdown : ¬ DownType msg_type) :
    CcClient.msg_handler msg_type = none := by
  unfold CcClient.msg_handler
  split <;> first
    | rfl
    | exact absurd (by decide) hup
    | exact absurd (by decide) hdown

section
variable {α σ : Type} {host : ByteOrder} {handlers : Nat → Option (Handler α)} {dispatch_event : Event α → EStateM Exn σ Unit}
variable {hdr : Header}

theorem callHandler_none (h : handlers hdr.msg_type = none) (buf : Bytes) (app : σ) :
    callHandler (handlerTable host handlers dispatch_event) hdr buf app = .error .KeyError app := by
  unfold callHandler handlerTable
  rw [h]
  rfl

theorem callHandler_some {handler : Handler α} (h : handlers hdr.msg_type = some handler) (buf : Bytes) :
    (∀ e, handler host hdr buf = .error e → ∀ app,
      callHandler (handlerTable host handlers dispatch_event) hdr buf app = .error e app) ∧
    (handler host hdr buf = .ok none → ∀ app,
      callHandler (handlerTable host handlers dispatch_event) hdr buf app = .ok () app) := by
  unfold callHandler handlerTable
  rw [h]
  refine ⟨fun e he app => ?_, fun he app => ?_⟩
  · simp only [Option.map_some, he]
    rfl
  · simp only [Option.map_some, he]
    rfl

end

section
variable {σ : Type} {host : ByteOrder} {f : Bytes} {hdr : Header}

theorem not_skips_central (hh : header f = .ok hdr) (hup : ¬ UpType hdr.msg_type) (up : Event MsgUp → EStateM Exn σ Unit)
    (c : Conn σ) (rets later : List Bytes) :
    ¬ (LocalController._recv_loop (handlerTable host Tflc.msg_handler up)).Skips f c rets later := by
  rcases Tflc.msg_handler_stray hup with hstub | hnone
  · exact not_skips_of_raises hh fun buf => (callHandler_some hstub buf).1 .TypeError rfl _
  · exact not_skips_of_raises hh fun buf => callHandler_none hnone buf _

theorem not_skips_unknown (hh : header f = .ok hdr) (hup : ¬ UpType hdr.msg_type) (hdown : ¬ DownType hdr.msg_type)
    (down : Event MsgDown → EStateM Exn σ Unit) (c : Conn σ) (rets later : List Bytes) :
    ¬ (CentralCtrlAgent._recv_loop (handlerTable host CcClient.msg_handler down)).Skips f c rets later :=
  not_skips_of_raises hh fun buf => callHandler_none (CcClient.msg_handler_unknown hup hdown) buf _

/-- **A stray frame is skipped exactly when** it has an uplink type and the
receiver is a local controller: whatever the state of the connection before it,
the results in which it comes, what follows and what the listeners do. -/
theorem stray_frame_skipped_iff (host : ByteOrder) (up : Event MsgUp → EStateM Exn σ Unit)
    (down : Event MsgDown → EStateM Exn σ Unit) (f : Bytes) (hdr : Header) (hh : header f = .ok hdr)
    (hlen : hdr.msg_len = f.length) (c : Conn σ) (hreq : c.required_len = TFLCP_HEADER_SIZE) (rets later : List Bytes)
    (hne : ∀ ret ∈ rets, ret ≠ []) (hf : f <+: c.buf ++ rets.flatten) :
    (¬ UpType hdr.msg_type →
      ¬ (LocalController._recv_loop (handlerTable host Tflc.msg_handler up)).Skips f c rets later) ∧
    (¬ DownType hdr.msg_type →
      ((CentralCtrlAgent._recv_loop (handlerTable host CcClient.msg_handler down)).Skips f c rets later ↔
        UpType hdr.msg_type)) := by
  refine ⟨fun hup => not_skips_central hh hup up c rets later, fun hdown => ⟨fun h => ?_, fun hup => ?_⟩⟩
  · by_contra hup
    exact not_skips_unknown hh hup hdown down c rets later h
  · refine skips_of_ignored hh hlen hreq later hne hf fun buf _ => ?_
    exact (callHandler_some (CcClient.msg_handler_uplink hup) buf).2 rfl c.app

end

/-- A HELLO_UP for a local controller, in two parts, and then the start of the next frame. -/
theorem stray_frame_skipped_iff_hello_up :
    (CentralCtrlAgent._recv_loop (idleTable CcClient.msg_handler)).Skips [1, 0, 0, 8, 0, 0, 0, 7] { app := () }
      [[1, 0, 0], [8, 0, 0, 0, 7, 1, 12]] [[0, 16]] :=
  ((stray_frame_skipped_iff .little (fun _ => pure ()) (fun _ => pure ()) [1, 0, 0, 8, 0, 0, 0, 7] ⟨1, 0, 8, 7⟩ rfl rfl
    { app := () } rfl [[1, 0, 0], [8, 0, 0, 0, 7, 1, 12]] [[0, 16]] (by decide) (by decide)).2 (by decide)).mpr (by decide)

/-- A HELLO_DOWN ends the connection at the central controller, and a frame of type 200 at both. -/
theorem stray_frames_raise :
    ¬ (LocalController._recv_loop (idleTable Tflc.msg_handler)).Skips [1, 1, 0, 8, 0, 0, 0, 7] { app := () }
      [[1, 1, 0, 8, 0, 0, 0, 7]] [] ∧
    ¬ (LocalController._recv_loop (idleTable Tflc.msg_handler)).Skips [1, 200, 0, 8, 0, 0, 0, 7] { app := () }
      [[1, 200, 0, 8, 0, 0, 0, 7]] [] ∧
    ¬ (CentralCtrlAgent._recv_loop (idleTable CcClient.msg_handler)).Skips [1, 200, 0, 8, 0, 0, 0, 7] { app := () }
      [[1, 200, 0, 8, 0, 0, 0, 7]] [] ∧
    ∃ c, (LocalController._recv_loop (idleTable Tflc.msg_handler)).run { app := () } [[1, 1, 0, 8, 0, 0, 0, 7]] =
      .raised .TypeError c ∧ c.is_active = false :=
  ⟨@not_skips_central _ _ _ ⟨1, 1, 8, 7⟩ rfl (by decide) _ _ _ _, @not_skips_central _ _ _ ⟨1, 200, 8, 7⟩ rfl (by decide) _ _ _ _,
    @not_skips_unknown _ _ _ ⟨1, 200, 8, 7⟩ rfl (by decide) (by decide) _ _ _ _, _, rfl, rfl⟩

end VnfDockerNet
