import VnfDockerNet.LocalHostSound
import VnfDockerNet.WindowRuleSound

/-!
# Reports of the windows

GRAPH_INFO is the one message without a bound on its size, while the length in
the header has 16 bits. A text that does not fit is not packed, and the
exception ends the thread that reports.
-/

namespace VnfDockerNet

open Python Networkx

/-! ## The frame -/

/-- The frame has room for the text: the header, the length of the text and the text. -/
def ReportFits (text : Bytes) : Prop := TFLCP_HEADER_SIZE + 4 + text.length ≤ 0xffff

instance (text : Bytes) : Decidable (ReportFits text) := inferInstanceAs (Decidable (_ ≤ _))

/-- Under any xid the message has a frame, whose header gives the length of the frame. -/
def Reportable (host : ByteOrder) (text : Bytes) : Prop :=
  ∀ xid ≤ MAX_XID, ∃ frame, (MsgUp.GraphInfo text).serialize host (some xid) = some frame ∧
    ∃ hdr, header frame = .ok hdr ∧ hdr.msg_len = frame.length

theorem pack_graphInfo_length {host : ByteOrder} {text bs : Bytes}
    (h : pack host (graphInfoPackStr text.length) [.int text.length, .str text] = some bs) : bs.length = 4 + text.length := by
  by_cases hsize : text.length < 256 ^ 4
  · have hf : fitsCodes (graphInfoPackStr text.length).codes [.int text.length, .str text] = true := by
      simpa [graphInfoPackStr, fitsCodes, Val.fits] using hsize
    obtain ⟨bs', hp, hlen, _⟩ := unpack_pack host _ _ hf
    rw [h] at hp
    cases hp
    rw [hlen]
    simp [calcsize, codesSize, graphInfoPackStr, Code.size]
  · have hnone : ∀ o, packVal o .I (.int text.length) = none := fun _ => if_neg hsize
    simp [pack, graphInfoPackStr, packCodes, hnone] at h

theorem graphInfo_unsent (host : ByteOrder) (xid : Option Nat) {text : Bytes} (h : ¬ ReportFits text) :
    (MsgUp.GraphInfo text).serialize host xid = none := by
  unfold ReportFits TFLCP_HEADER_SIZE at h
  unfold MsgUp.serialize VnfDockerNet.serialize MsgUp._serialize_body
  simp only [msg_pack_into_header]
  cases hp : pack host (graphInfoPackStr text.length) [.int text.length, .str text] with
  | none => rfl
  | some bs =>
    have hlen := pack_graphInfo_length hp
    have hwide : ¬ (zeros TFLCP_HEADER_SIZE ++ bs).length < 2 ^ 16 := by
      rw [List.length_append, zeros_length]
      simp only [TFLCP_HEADER_SIZE]
      omega
    have hheader : pack host TFLCP_HEADER_PACK_STR [.int TFLC_VERSION_1, .int (MsgUp.GraphInfo text).msg_type,
        .int (zeros TFLCP_HEADER_SIZE ++ bs).length, .int (xid.getD 0)] = none := by
      refine packCodes_of_not_fits _ _ _ (by decide) (by simp) ?_
      simp only [fitsCodes, TFLCP_HEADER_PACK_STR, Val.fits, hwide, decide_false, Bool.false_and, Bool.and_false]
    simp only [Option.map_some, Option.bind_eq_bind, Option.bind_some, pack_into, hheader, Option.bind_none, ite_self]

/-- **A window list has a frame** exactly when its text leaves room for the rest. -/
theorem reportable_of_fits (host : ByteOrder) (text : Bytes) : Reportable host text ↔ ReportFits text := by
  refine ⟨fun h => ?_, fun h xid hx => ?_⟩
  · by_contra hwide
    obtain ⟨frame, hframe, _⟩ := h 0 (Nat.zero_le _)
    rw [graphInfo_unsent host _ hwide] at hframe
    cases hframe
  · unfold ReportFits TFLCP_HEADER_SIZE at h
    obtain ⟨frame, hframe, hdelivers⟩ := delivers_graphInfo host (Nat.lt_succ_of_le hx) text (by omega)
    obtain ⟨hdr, hhdr, hheader, _⟩ := hdelivers []
    rw [List.append_nil] at hheader
    exact ⟨frame, hframe, hdr, hheader, by rw [hhdr]⟩

namespace Layer2Switch

variable {env : LocalEnv} {s : Layer2Switch env.nx.Graph}

/-! ## The thread -/

/-- The records have both switches and both ports. -/
def Complete (window_switches : List Window) : Prop :=
  ∀ t ∈ window_switches, t.src_dpid.isSome ∧ t.src_port_no.isSome ∧ t.dst_dpid.isSome ∧ t.dst_port_no.isSome

instance (window_switches : List Window) : Decidable (Complete window_switches) := List.decidableBAll _ _

theorem wp_recordWindows_frame : ∀ (window_switches : List Window) (s : Layer2Switch env.nx.Graph), Recordable window_switches →
    wp (recordWindows env window_switches) s
      (fun _ s' => ∃ dpid_to_is_win dpid_to_out_port, s' = { s with dpid_to_is_win, dpid_to_out_port }) fun _ _ => False
  | [], s, _ => ⟨s.dpid_to_is_win, s.dpid_to_out_port, rfl⟩
  | t :: window_switches, s, hrec => by
    obtain ⟨hdst, hport⟩ := hrec t List.mem_cons_self
    obtain ⟨dst_dpid, hdst⟩ := Option.isSome_iff_exists.mp hdst
    obtain ⟨dst_port_no, hport⟩ := Option.isSome_iff_exists.mp hport
    unfold recordWindows
    rw [hdst, hport]
    refine wp_mono (wp_recordWindows_frame window_switches _ fun t ht => hrec t (List.mem_cons_of_mem _ ht))
      (fun _ s' hs' => ?_) fun _ _ h => h
    obtain ⟨wins, ports, rfl⟩ := hs'
    exact ⟨wins, ports, rfl⟩

theorem wp_send_report_wide {text : Bytes} (h : ¬ ReportFits text) {Q : Unit → Layer2Switch env.nx.Graph → Prop}
    {E : Exn → Layer2Switch env.nx.Graph → Prop} (hE : ∀ xid, E .StructError { s with xid }) :
    wp (send_msg env none (.GraphInfo text)) s Q E := by
  unfold send_msg
  rw [wp_bind]
  show wp (transmit env ((s.xid + 1) &&& MAX_XID) (.GraphInfo text)) { s with xid := (s.xid + 1) &&& MAX_XID } Q E
  unfold transmit
  rw [graphInfo_unsent env.host _ h]
  exact hE _

theorem wp_graph_info_reports {window_switches : List Window} (hrec : Recordable window_switches) (hlive : s.is_live = true) :
    wp (_graph_info_thread env window_switches) s
      (fun _ s' => s'.window_info_hash = env.windows_digest window_switches ∧
        (env.windows_digest window_switches = s.window_info_hash ∧ s'.sent = s.sent ∨
          ReportFits (env.json_dumps window_switches) ∧
            ∃ xid, s'.sent = s.sent ++ [⟨xid, .GraphInfo (env.json_dumps window_switches)⟩]))
      fun e s' => e = .StructError ∧ env.windows_digest window_switches ≠ s.window_info_hash ∧
        ¬ ReportFits (env.json_dumps window_switches) ∧ s'.window_info_hash = s.window_info_hash ∧ s'.sent = s.sent := by
  unfold _graph_info_thread
  simp only [wp_bind, wp_get, if_pos hlive]
  refine wp_mono (wp_recordWindows_frame window_switches s hrec) (fun _ s₁ h₁ => ?_) fun _ _ h => h.elim
  obtain ⟨wins, ports, rfl⟩ := h₁
  rw [wp_ite]
  refine ⟨fun hnew => ?_, fun hold => ?_⟩
  · rw [wp_bind]
    by_cases hfits : ReportFits (env.json_dumps window_switches)
    · have hf : (MsgUp.GraphInfo (env.json_dumps window_switches)).fits = true := by
        unfold ReportFits TFLCP_HEADER_SIZE at hfits
        exact decide_eq_true (by omega)
      exact wp_send_msg_fits rfl hf fun _ xid => ⟨rfl, .inr ⟨hfits, xid, rfl⟩⟩
    · exact wp_send_report_wide hfits fun _ => ⟨rfl, hnew, hfits, rfl, rfl⟩
  · have hsame : env.windows_digest window_switches = s.window_info_hash := by simpa using hold
    exact ⟨hsame.symm, .inl ⟨hsame, rfl⟩⟩

theorem wp_graph_info_wide {window_switches : List Window} (hrec : Recordable window_switches) (hlive : s.is_live = true)
    (hnew : env.windows_digest window_switches ≠ s.window_info_hash) (hwide : ¬ ReportFits (env.json_dumps window_switches)) :
    Raises (_graph_info_thread env window_switches) s
      fun s' => s'.window_info_hash ≠ env.windows_digest window_switches := by
  refine wp_mono (wp_graph_info_reports hrec hlive) (fun _ s' h => ?_) fun _ s' h => ?_
  · exact h.2.elim (fun hsame => hnew hsame.1) fun hfits => hwide hfits.1
  · rw [h.2.2.2.1]
    exact hnew.symm

/-- **A window list can be reported** exactly when its text fits the frame: the
message has a frame with its true length, and the round keeps the hash. A round
over a list that was reported before sends nothing and needs no frame; one over
a new list that does not fit raises `struct.error` and has sent nothing. -/
theorem window_report_iff (env : LocalEnv) (s : Layer2Switch env.nx.Graph) (window_switches : List Window)
    (hcomplete : Complete window_switches) (hlive : s.is_live = true) :
    (Reportable env.host (env.json_dumps window_switches) ∧
      wp (_graph_info_thread env window_switches) s
        (fun _ s' => s'.window_info_hash = env.windows_digest window_switches) (fun _ _ => False) ↔
      ReportFits (env.json_dumps window_switches)) ∧
    (wp (_graph_info_thread env window_switches) s
        (fun _ s' => s'.window_info_hash = env.windows_digest window_switches) (fun _ _ => False) ↔
      env.windows_digest window_switches = s.window_info_hash ∨ ReportFits (env.json_dumps window_switches)) ∧
    wp (_graph_info_thread env window_switches) s (fun _ _ => True) fun e s' =>
      e = .StructError ∧ s'.window_info_hash = s.window_info_hash ∧ s'.sent = s.sent := by
  have hround := @wp_graph_info_reports env s _ (fun t ht => (hcomplete t ht).2.2) hlive
  have hkeeps : wp (_graph_info_thread env window_switches) s
      (fun _ s' => s'.window_info_hash = env.windows_digest window_switches) (fun _ _ => False) ↔
      env.windows_digest window_switches = s.window_info_hash ∨ ReportFits (env.json_dumps window_switches) := by
    refine ⟨fun h => ?_, fun h => wp_mono hround (fun _ _ h' => h'.1) fun _ _ h' => ?_⟩
    · obtain ⟨_, s', hs', _⟩ := ok_of_wp h
      unfold wp at hround
      rw [hs'] at hround
      exact hround.2.imp And.left And.left
    · exact h.elim h'.2.1 h'.2.2.1
  refine ⟨?_, hkeeps, wp_mono hround (fun _ _ _ => trivial) fun _ _ h => ⟨h.1, h.2.2.2⟩⟩
  rw [reportable_of_fits, hkeeps]
  exact ⟨And.left, fun h => ⟨h, .inr h⟩⟩

/-! ## A large domain -/

/-- `json.dumps` of a window list whose keys come in the order of `Window`. -/
def dumpWindow (t : Window) : Bytes :=
  asciiText "\x7b\"src_dpid\": " ++ asciiText (toString (t.src_dpid.getD 0)) ++
  asciiText ", \"src_port_no\": " ++ asciiText (toString (t.src_port_no.getD 0)) ++
  asciiText ", \"dst_dpid\": " ++ asciiText (toString (t.dst_dpid.getD 0)) ++
  asciiText ", \"dst_port_no\": " ++ asciiText (toString (t.dst_port_no.getD 0)) ++ asciiText "\x7d"

def dumpWindows (window_switches : List Window) : Bytes :=
  asciiText "[" ++ (asciiText ", ").intercalate (window_switches.map dumpWindow) ++ asciiText "]"

theorem le_length_dumpWindow (t : Window) : 62 ≤ (dumpWindow t).length := by
  have hkeys : (asciiText "\x7b\"src_dpid\": ").length = 13 ∧ (asciiText ", \"src_port_no\": ").length = 17 ∧
      (asciiText ", \"dst_dpid\": ").length = 14 ∧ (asciiText ", \"dst_port_no\": ").length = 17 ∧
      (asciiText "\x7d").length = 1 := by decide +kernel
  obtain ⟨h₁, h₂, h₃, h₄, h₅⟩ := hkeys
  unfold dumpWindow
  simp only [List.length_append, h₁, h₂, h₃, h₄, h₅]
  omega

theorem le_length_intercalate {α : Type} (sep : List α) (n : Nat) : ∀ l : List (List α), (∀ x ∈ l, n ≤ x.length) →
    n * l.length ≤ (sep.intercalate l).length
  | [], _ => by simp
  | [x], h => by simpa using h x List.mem_cons_self
  | x :: y :: l, h => by
    have hx := h x List.mem_cons_self
    have hrest := le_length_intercalate sep n (y :: l) fun z hz => h z (List.mem_cons_of_mem _ hz)
    rw [List.intercalate_cons_cons, List.length_append, List.length_append, List.length_cons, Nat.mul_succ]
    omega

theorem le_length_dumpWindows (window_switches : List Window) :
    62 * window_switches.length ≤ (dumpWindows window_switches).length := by
  have h := le_length_intercalate (asciiText ", ") 62 (window_switches.map dumpWindow) fun x hx => by
    obtain ⟨t, _, rfl⟩ := List.mem_map.mp hx
    exact le_length_dumpWindow t
  rw [List.length_map] at h
  unfold dumpWindows
  simp only [List.length_append]
  omega

/-- A domain with 1100 switches at its border. -/
def largeDomain : List Window := (List.range 1100).map fun i => ⟨some (i + 1), some 1, some (i + 2001), some 1⟩

def reportEnv (windows_digest : List Window → Bytes) : LocalEnv :=
  { sampleLocalEnv with json_dumps := dumpWindows, windows_digest }

theorem reportEnv_breaks_off (windows_digest : List Window → Bytes) {window_switches : List Window}
    (hcomplete : Complete window_switches) (hwide : ¬ ReportFits (dumpWindows window_switches))
    (hdigest : ∀ ws, (windows_digest ws).length = 16) :
    Raises (_graph_info_thread (reportEnv windows_digest) window_switches)
      { init (reportEnv windows_digest) 0 with is_live := true }
      fun s' => s'.window_info_hash ≠ windows_digest window_switches := by
  have hstart : (asciiText "99914b932bd37a50b983c5e7c90ae93b").length = 32 := by decide +kernel
  have hnew : windows_digest window_switches ≠ asciiText "99914b932bd37a50b983c5e7c90ae93b" := by
    intro he
    have hlen := hdigest window_switches
    rw [he, hstart] at hlen
    omega
  exact wp_graph_info_wide (fun t ht => (hcomplete t ht).2.2) rfl hnew hwide

/-- The report of a large domain has no frame, and any MD5 digest of its windows ends the thread. -/
theorem large_domain_unreported : Complete largeDomain ∧ ¬ Reportable .little (dumpWindows largeDomain) ∧
    ∀ windows_digest : List Window → Bytes, (∀ ws, (windows_digest ws).length = 16) →
      Raises (_graph_info_thread (reportEnv windows_digest) largeDomain)
        { init (reportEnv windows_digest) 0 with is_live := true }
        fun s' => s'.window_info_hash ≠ windows_digest largeDomain := by
  have hlen : largeDomain.length = 1100 := by
    unfold largeDomain
    rw [List.length_map, List.length_range]
  have hcomplete : Complete largeDomain := by
    intro t ht
    obtain ⟨i, _, rfl⟩ := List.mem_map.mp ht
    exact ⟨rfl, rfl, rfl, rfl⟩
  have hwide : ¬ ReportFits (dumpWindows largeDomain) := by
    have h := le_length_dumpWindows largeDomain
    rw [hlen] at h
    unfold ReportFits
    omega
  -- the list itself is not looked at any more
  generalize largeDomain = window_switches at hcomplete hwide ⊢
  refine ⟨hcomplete, mt (reportable_of_fits _ _).mp hwide, fun windows_digest hdigest => ?_⟩
  exact reportEnv_breaks_off windows_digest hcomplete hwide hdigest

/-- An empty list is reported after the start, whose hash it does not have. -/
theorem window_report_iff_empty :
    (Reportable .little (asciiText "[]") ↔ ReportFits (asciiText "[]")) ∧
    wp (_graph_info_thread sampleLocalEnv []) { init sampleLocalEnv 0 with is_live := true }
      (fun _ s' => s'.window_info_hash = sampleLocalEnv.windows_digest []) fun _ _ => False := by
  have h := window_report_iff sampleLocalEnv { init sampleLocalEnv 0 with is_live := true } [] (by decide) rfl
  have hfits : ReportFits (sampleLocalEnv.json_dumps []) := by decide +kernel
  exact ⟨⟨fun _ => hfits, fun hf => (h.1.mpr hf).1⟩, h.2.1.mpr (.inr hfits)⟩

end Layer2Switch

end VnfDockerNet
