import VnfDockerNet.CentralSpec
import VnfDockerNet.Lib.Runs

/-!
# Three missed echoes

The three flags of a controller count the rounds since its last HELLO_UP or
ECHO_REPLY: none, one, two, and three or more. The third round sets `lc_outline`
and calls `_ms_switch_execute`; later rounds see the flag and do nothing.
-/

namespace VnfDockerNet

open Python Networkx Runs

namespace MsSwitch

variable {env : Env}

def flags {Γ : Type} (s : AppManager Γ) (lcid : Lcid) : Option Bool × Option Bool × Option Bool :=
  (s.lc_outline.get lcid, s.lc_outline_0.get lcid, s.lc_outline_1.get lcid)

def flagsAfter (n : Nat) : Option Bool × Option Bool × Option Bool :=
  (some (decide (3 ≤ n)), some (decide (1 ≤ n)), some (decide (2 ≤ n)))

/-! ## One round -/

section
variable {m : MsSwitch env.nx.Graph} {lcid : Lcid}

structure Checked (lcid : Lcid) (m m' : MsSwitch env.nx.Graph) : Prop where
  others : ∀ u, u ≠ lcid → flags m'.app u = flags m.app u
  ctrls : m'.app.local_ctrl_list = m.app.local_ctrl_list
  lcs : m'.app.lcs = m.app.lcs

theorem flags_eq {s : AppManager env.nx.Graph} {a b c : Option Bool} (h : flags s lcid = (a, b, c)) :
    s.lc_outline.get lcid = a ∧ s.lc_outline_0.get lcid = b ∧ s.lc_outline_1.get lcid = c := by
  simpa only [flags, Prod.mk.injEq] using h

theorem wp_checkOutline {n : Nat} (h : flags m.app lcid = flagsAfter n) :
    wp (checkOutline env lcid) m (fun _ m' => flags m'.app lcid = flagsAfter (n + 1) ∧ Checked lcid m m' ∧
      m'.executed = m.executed ++ if n = 2 then [lcid] else []) fun _ _ => False := by
  obtain ⟨h0, h1, h2⟩ := flags_eq h
  have hother : ∀ (d : Dict Lcid Bool) (b : Bool) (u : Lcid), u ≠ lcid → Dict.get (d.insert lcid b) u = d.get u :=
    fun d b u hu => by rw [Dict.get_insert, if_neg hu]
  have hself : ∀ (d : Dict Lcid Bool) (b : Bool), Dict.get (d.insert lcid b) lcid = some b :=
    fun d b => by rw [Dict.get_insert, if_pos rfl]
  unfold checkOutline _ms_switch_execute
  simp only [wp_bind, wp_get, wp_item_some h0, wp_item_some h1, wp_item_some h2, wp_ite, wp_modify, wp_pure,
    Bool.not_eq_true', decide_eq_true_eq, decide_eq_false_iff_not]
  -- of the five branches the first is for flags that no count has
  refine ⟨fun h3 => ⟨fun h1' => ⟨fun h2' => ?_, fun h2' => ?_⟩, fun h1' => ⟨fun h2' => ?_, fun h2' => ?_⟩⟩, fun h3 => ?_⟩
  · omega
  · obtain rfl : n = 0 := by omega
    exact ⟨by simp [flags, flagsAfter, h0, h2, hself], ⟨fun u hu => by simp [flags, hother _ _ u hu], rfl, rfl⟩, by simp⟩
  · obtain rfl : n = 2 := by omega
    exact ⟨by simp [flags, flagsAfter, h1, h2, hself], ⟨fun u hu => by simp [flags, hother _ _ u hu], rfl, rfl⟩, by simp⟩
  · obtain rfl : n = 1 := by omega
    exact ⟨by simp [flags, flagsAfter, h0, h1, hself], ⟨fun u hu => by simp [flags, hother _ _ u hu], rfl, rfl⟩, by simp⟩
  · have hn2 : n ≠ 2 := by omega
    refine ⟨?_, ⟨fun _ _ => rfl, rfl, rfl⟩, by simp [hn2]⟩
    rw [h]
    simp only [flagsAfter, Prod.mk.injEq, Option.some.injEq, decide_eq_decide]
    omega

theorem flagsAfter_next {n n' : Nat} (h : flagsAfter n = flagsAfter n') :
    flagsAfter (n + 1) = flagsAfter (n' + 1) ∧ (n = 2 ↔ n' = 2) := by
  simp only [flagsAfter, Prod.mk.injEq, Option.some.injEq, decide_eq_decide] at h ⊢
  omega

structure Decided (lcids : List Lcid) (m m' : MsSwitch env.nx.Graph) : Prop where
  listed : ∀ u ∈ lcids, ∀ n, flags m.app u = flagsAfter n → flags m'.app u = flagsAfter (n + 1) ∧
    m'.executed.count u = m.executed.count u + if n = 2 then 1 else 0
  others : ∀ u, u ∉ lcids → flags m'.app u = flags m.app u ∧ m'.executed.count u = m.executed.count u
  ctrls : m'.app.local_ctrl_list = m.app.local_ctrl_list
  lcs : m'.app.lcs = m.app.lcs

theorem wp_ms_switch_decide : ∀ (lcids : List Lcid) (m : MsSwitch env.nx.Graph), lcids.Nodup →
    (∀ u ∈ lcids, ∃ n, flags m.app u = flagsAfter n) →
    wp (_ms_switch_decide env lcids) m (fun _ => Decided lcids m) fun _ _ => False
  | [], m, _, _ => ⟨fun _ h => (by cases h), fun _ _ => ⟨rfl, rfl⟩, rfl, rfl⟩
  | lcid :: lcids, m, hnodup, hflags => by
    obtain ⟨hout, hnodup⟩ := List.nodup_cons.mp hnodup
    obtain ⟨n₀, hn₀⟩ := hflags lcid (List.mem_cons_self ..)
    unfold _ms_switch_decide
    rw [wp_bind]
    refine wp_mono (wp_checkOutline hn₀) (fun _ m₁ h₁ => ?_) fun _ _ h => h
    obtain ⟨hself, hchecked, hexec⟩ := h₁
    have hne : ∀ u ∈ lcids, u ≠ lcid := fun u hu he => hout (he ▸ hu)
    have hcount : ∀ u, u ≠ lcid → m₁.executed.count u = m.executed.count u := fun u hu => by
      rw [hexec, List.count_append]
      split
      · rw [List.count_singleton, if_neg (by simpa using Ne.symm hu), Nat.add_zero]
      · rw [List.count_nil, Nat.add_zero]
    have hflags₁ : ∀ u ∈ lcids, ∃ n, flags m₁.app u = flagsAfter n := fun u hu => by
      rw [hchecked.others u (hne u hu)]
      exact hflags u (List.mem_cons_of_mem lcid hu)
    refine wp_mono (wp_ms_switch_decide lcids m₁ hnodup hflags₁) (fun _ m₂ h₂ => ?_) fun _ _ h => h
    refine ⟨fun u hu n hn => ?_, fun u hu => ?_, h₂.ctrls.trans hchecked.ctrls, h₂.lcs.trans hchecked.lcs⟩
    · rcases List.mem_cons.mp hu with rfl | hu
      · obtain ⟨hnext, htwo⟩ := flagsAfter_next (hn.symm.trans hn₀)
        obtain ⟨hsame, hcount₂⟩ := h₂.others u hout
        refine ⟨by rw [hsame, hself, hnext], ?_⟩
        rw [hcount₂, hexec, List.count_append]
        by_cases hn2 : n = 2
        · simp [hn2, htwo.mp hn2]
        · simp [hn2, mt htwo.mpr hn2]
      · obtain ⟨hnext, hcount₂⟩ := h₂.listed u hu n (by rw [hchecked.others u (hne u hu), hn])
        exact ⟨hnext, by rw [hcount₂, hcount u (hne u hu)]⟩
    · obtain ⟨hu₁, hu₂⟩ := not_or.mp (mt List.mem_cons.mpr hu)
      obtain ⟨hsame, hcount₂⟩ := h₂.others u hu₂
      exact ⟨by rw [hsame, hchecked.others u hu₁], by rw [hcount₂, hcount u hu₁]⟩

/-! ## Messages -/

/-- HELLO_UP and ECHO_REPLY set the flags back. -/
def Calls (msg : MsgUp) : Prop := msg = .HelloUp ∨ ∃ timestamp, msg = .EchoReply timestamp

structure Answered (lc : Nat) (msg : MsgUp) (s s' : AppManager env.nx.Graph) : Prop where
  back : Calls msg → flags s' (s'.lcs lc).id = flagsAfter 0
  others : ∀ u, ¬ (Calls msg ∧ (s'.lcs lc).id = u) → flags s' u = flags s u ∧
    (u ∈ s'.local_ctrl_list → u ∈ s.local_ctrl_list)

theorem answered_other {lc : Nat} {msg : MsgUp} {s s' : AppManager env.nx.Graph} (hmsg : ¬ Calls msg)
    (h : flags s' = flags s) (hctrls : s'.local_ctrl_list = s.local_ctrl_list) : Answered lc msg s s' :=
  ⟨fun hc => absurd hc hmsg, fun u _ => ⟨by rw [h], fun hu => hctrls ▸ hu⟩⟩

theorem answered_hello (lc : Nat) (s : AppManager env.nx.Graph) :
    AppManager.Always (AppManager._tflcp_hello_up_handler env lc) s (Answered lc .HelloUp s) := by
  refine AppManager.Always.mono (AppManager.always_hello_up lc s) ?_
  intro _ hpost
  obtain ⟨lcid, x, msgs, _, rfl, _⟩ := hpost
  have hid : ((AppManager.sends (AppManager.helloed s lc lcid) lc x msgs).lcs lc).id = some lcid := by
    rw [AppManager.sends_id, AppManager.helloed_id, if_pos rfl]
  refine ⟨fun _ => ?_, fun u hu => ?_⟩
  · rw [hid]
    simp [flags, flagsAfter, AppManager.sends, AppManager.helloed, Dict.get_insert]
  · rw [hid] at hu
    have hne : u ≠ some lcid := fun he => hu ⟨Or.inl rfl, he.symm⟩
    refine ⟨by simp [flags, AppManager.sends, AppManager.helloed, Dict.get_insert, hne], fun hin => ?_⟩
    exact (AList.mem_insert _).mp hin |>.resolve_left hne

theorem answered_echo (lc timestamp : Nat) (s : AppManager env.nx.Graph) :
    AppManager.Always (AppManager._tflcp_echo_reply_handler env lc) s (Answered lc (.EchoReply timestamp) s) := by
  refine ⟨fun _ => ?_, fun u hu => ?_⟩
  · simp [flags, flagsAfter, Dict.get_insert]
  · have hne : u ≠ (s.lcs lc).id := fun he => hu ⟨Or.inr ⟨timestamp, rfl⟩, he.symm⟩
    exact ⟨by simp [flags, Dict.get_insert, hne], fun h => h⟩

theorem always_answered (lc : Nat) (ev : Event MsgUp) (s : AppManager env.nx.Graph) :
    AppManager.Always (AppManager.dispatch_event env lc ev) s (Answered lc ev.msg s) := by
  unfold AppManager.dispatch_event
  cases hmsg : ev.msg with
  | HelloUp => exact answered_hello lc s
  | EchoReply timestamp => exact answered_echo lc timestamp s
  | DPConnected dpid w =>
    refine AppManager.Always.mono (AppManager.always_datapath_connected lc dpid s) ?_
    intro _ hpost
    rcases hpost with ⟨hosts, dps, rfl, _⟩ | ⟨hosts, dps, dp, x, msgs, _, _, rfl, _⟩
    · exact answered_other (by simp [Calls]) rfl rfl
    · exact answered_other (by simp [Calls]) rfl rfl
  | GidRequest dpid =>
    refine AppManager.Always.mono (AppManager.always_gid_request lc dpid s) ?_
    intro _ hpost
    rcases hpost with rfl | ⟨dp, x, msgs, _, rfl, _⟩
    · exact answered_other (by simp [Calls]) rfl rfl
    · exact answered_other (by simp [Calls]) rfl rfl
  | PacketIn in_dpid src_mac dst_mac src_ip dst_ip tp_src tp_dst =>
    refine AppManager.Always.mono (AppManager.always_packet_in lc _ in_dpid src_mac dst_mac s) ?_
    intro _ hpost
    obtain ⟨msgs, rfl, _⟩ := hpost
    exact answered_other (by simp [Calls]) rfl rfl
  | LoadReport dpid pkt_in_cnt =>
    refine AppManager.Always.mono (AppManager.always_load_report lc dpid pkt_in_cnt s) ?_
    intro _ hpost
    rcases hpost with rfl | ⟨dp, _, rfl⟩
    · exact answered_other (by simp [Calls]) rfl rfl
    · exact answered_other (by simp [Calls]) rfl rfl
  | HostConnected dpid mac =>
    refine AppManager.Always.mono (AppManager.always_host_connected lc dpid mac s) ?_
    intro _ hpost
    obtain ⟨hosts, dps, rfl, _⟩ := hpost
    exact answered_other (by simp [Calls]) rfl rfl
  | DatapathLeave dpid =>
    refine AppManager.Always.mono (AppManager.always_datapath_leave lc dpid s) ?_
    intro _ hpost
    obtain ⟨hosts, dps, dps', role, load, win, g, rfl, _⟩ := hpost
    exact answered_other (by simp [Calls]) rfl rfl
  | HostLeave dpid mac =>
    refine AppManager.Always.mono (AppManager.always_host_leave dpid mac s) ?_
    intro _ hpost
    obtain ⟨hosts, dps, rfl, _⟩ := hpost
    exact answered_other (by simp [Calls]) rfl rfl
  | GraphInfo text =>
    refine AppManager.Always.mono (AppManager.always_graph_info lc text s) ?_
    intro _ hpost
    obtain ⟨ws, g, rfl, _⟩ := hpost
    exact answered_other (by simp [Calls]) rfl rfl
  | RoleNotify | Error | BarrierReply => exact answered_other (by simp [Calls]) rfl rfl

theorem answered_receive (s : AppManager env.nx.Graph) (r : Received) :
    Answered r.lc r.ev.msg s (AppManager.receive env s r) := by
  refine AppManager.receive_of_always _ (fun s' h => ?_) (always_answered r.lc r.ev s)
  refine ⟨fun hc => ?_, fun u hu => ?_⟩
  · rw [AppManager.close_id]
    exact h.back hc
  · rw [AppManager.close_id] at hu
    exact h.others u hu

/-! ## Runs -/

/-- The message is a HELLO_UP or an ECHO_REPLY of the controller `lcid`. -/
def Resets (env : Env) (m : MsSwitch env.nx.Graph) (lcid : Lcid) (r : Received) : Prop :=
  Calls r.ev.msg ∧ ((m.app.receive env r).lcs r.lc).id = lcid

/-- In a run from `m₀`, no message in `after` resets the flags of `lcid`. -/
def SinceReset (env : Env) (m₀ : MsSwitch env.nx.Graph) (before : List MsTurn) (r : Received) (after : List MsTurn)
    (lcid : Lcid) : Prop :=
  Resets env (before.foldl (next env) m₀) lcid r ∧ ∀ a r' b, after = a ++ .received r' :: b →
    ¬ Resets env ((before ++ .received r :: a).foldl (next env) m₀) lcid r'

def isRound : MsTurn → Bool
  | .received _ => false
  | .round _ => true

def rounds (ts : List MsTurn) : Nat := ts.countP isRound

/-- The controller has missed as many echoes as there were rounds since its last message. -/
def Missed (env : Env) (m₀ : MsSwitch env.nx.Graph) (ts : List MsTurn) (lcid : Lcid) : Prop :=
  ∃ before r after, ts = before ++ .received r :: after ∧ SinceReset env m₀ before r after lcid ∧
    flags (ts.foldl (next env) m₀).app lcid = flagsAfter (rounds after) ∧
    (ts.foldl (next env) m₀).executed.count lcid =
      ((before ++ [MsTurn.received r]).foldl (next env) m₀).executed.count lcid + if 3 ≤ rounds after then 1 else 0

theorem SinceReset.snoc {m₀ : MsSwitch env.nx.Graph} {before after : List MsTurn} {r : Received} {t : MsTurn}
    (h : SinceReset env m₀ before r after lcid)
    (ht : ∀ r', t = .received r' → ¬ Resets env ((before ++ .received r :: after).foldl (next env) m₀) lcid r') :
    SinceReset env m₀ before r (after ++ [t]) lcid := by
  refine ⟨h.1, fun a r' b hsplit => ?_⟩
  rcases snoc_split hsplit with ⟨rfl, htr, _⟩ | ⟨b', _, hafter⟩
  · exact ht r' htr
  · exact h.2 a r' b' hafter

theorem Missed.received {m₀ : MsSwitch env.nx.Graph} {ts : List MsTurn} {r : Received}
    (hreg : lcid ∈ ((ts ++ [MsTurn.received r]).foldl (next env) m₀).app.local_ctrl_list)
    (h : lcid ∈ (ts.foldl (next env) m₀).app.local_ctrl_list → Missed env m₀ ts lcid) :
    Missed env m₀ (ts ++ [.received r]) lcid := by
  have hans := answered_receive (ts.foldl (next env) m₀).app r
  by_cases hr : Resets env (ts.foldl (next env) m₀) lcid r
  · refine ⟨ts, r, [], rfl, ⟨hr, fun a r' b hsplit => ?_⟩, ?_, rfl⟩
    · simp at hsplit
    · rw [List.foldl_append]
      have hback := hans.back hr.1
      rw [hr.2] at hback
      exact hback
  · rw [List.foldl_append] at hreg
    obtain ⟨hsame, hold⟩ := hans.others lcid hr
    obtain ⟨before, r₀, after, rfl, hsince, hflags, hcount⟩ := h (hold hreg)
    have hrounds : rounds (after ++ [.received r]) = rounds after := by simp [rounds, isRound]
    refine ⟨before, r₀, after ++ [.received r], by simp, hsince.snoc fun r' he => ?_, ?_, ?_⟩
    · cases he
      exact hr
    · rw [hrounds, List.foldl_append]
      exact hsame.trans hflags
    · rw [hrounds, List.foldl_append]
      exact hcount

theorem decided_of_missed {m₀ : MsSwitch env.nx.Graph} {ts : List MsTurn} {lcids : List Lcid}
    (hlists : lcids.Perm (ts.foldl (next env) m₀).app.local_ctrl_list.keys)
    (h : ∀ u ∈ (ts.foldl (next env) m₀).app.local_ctrl_list, Missed env m₀ ts u) :
    ∃ m', _ms_switch_decide env lcids (ts.foldl (next env) m₀) = .ok () m' ∧ Decided lcids (ts.foldl (next env) m₀) m' := by
  have hwp := wp_ms_switch_decide lcids (ts.foldl (next env) m₀)
    (hlists.nodup_iff.mpr (AList.keys_nodup _)) fun u hu => by
      obtain ⟨_, _, after, _, _, hflags, _⟩ := h u (AList.mem_keys.mpr (hlists.mem_iff.mp hu))
      exact ⟨_, hflags⟩
  obtain ⟨_, m', hx, hd⟩ := ok_of_wp hwp
  exact ⟨m', hx, hd⟩

theorem Missed.round {m₀ : MsSwitch env.nx.Graph} {ts : List MsTurn} {lcids : List Lcid}
    (hlists : lcids.Perm (ts.foldl (next env) m₀).app.local_ctrl_list.keys)
    (h : ∀ u ∈ (ts.foldl (next env) m₀).app.local_ctrl_list, Missed env m₀ ts u)
    (hreg : lcid ∈ ((ts ++ [MsTurn.round lcids]).foldl (next env) m₀).app.local_ctrl_list) :
    Missed env m₀ (ts ++ [.round lcids]) lcid := by
  have hmem : ∀ u, u ∈ lcids ↔ u ∈ (ts.foldl (next env) m₀).app.local_ctrl_list := fun u =>
    hlists.mem_iff.trans AList.mem_keys.symm
  have hdecided : Decided lcids (ts.foldl (next env) m₀) ((ts ++ [MsTurn.round lcids]).foldl (next env) m₀) := by
    obtain ⟨m', hx, hd⟩ := decided_of_missed hlists h
    have hnext : next env (ts.foldl (next env) m₀) (.round lcids) = m' := by simp only [next, hx]
    rw [List.foldl_append, List.foldl_cons, List.foldl_nil, hnext]
    exact hd
  rw [hdecided.ctrls] at hreg
  obtain ⟨before, r, after, hts, hsince, hflags, hcount⟩ := h lcid hreg
  obtain ⟨hnext, hcount'⟩ := hdecided.listed lcid ((hmem lcid).mpr hreg) _ hflags
  have hrounds : rounds (after ++ [.round lcids]) = rounds after + 1 := by simp [rounds, isRound]
  refine ⟨before, r, after ++ [.round lcids], by simp [hts], hsince.snoc fun _ he => (by cases he), ?_, ?_⟩
  · rw [hrounds]
    exact hnext
  · rw [hrounds, hcount', hcount]
    split
    · rw [if_neg (by omega), if_pos (by omega)]
    · by_cases htwo : rounds after = 2
      · rw [if_pos htwo, if_pos (by omega)]
      · rw [if_neg htwo, if_neg (by omega)]

theorem missed_run {m₀ : MsSwitch env.nx.Graph} (h₀ : ∀ u, u ∉ m₀.app.local_ctrl_list) (ts : List MsTurn)
    (hall : Allowed (next env) Lists m₀ ts) : ∀ u ∈ (ts.foldl (next env) m₀).app.local_ctrl_list, Missed env m₀ ts u := by
  induction ts using List.reverseRecOn with
  | nil => exact fun u hu => absurd hu (h₀ u)
  | append_singleton ts t ih =>
    obtain ⟨hts, ht, _⟩ := allowed_append.mp hall
    intro u hu
    cases t with
    | received r => exact Missed.received hu (ih hts u)
    | round lcids => exact Missed.round ht (ih hts) hu

/-- **A controller is out of line after three missed echoes**, and then
`_ms_switch_execute` has been called for it once. -/
theorem missed_echoes_detected (env : Env) (address : Nat → String × Nat) (xid : Nat → Nat) (ts : List MsTurn)
    (hall : Allowed (next env) Lists (init env address xid) ts) (lcid : Lcid)
    (hreg : lcid ∈ (ts.foldl (next env) (init env address xid)).app.local_ctrl_list) :
    ∃ before r after, ts = before ++ .received r :: after ∧ SinceReset env (init env address xid) before r after lcid ∧
      (ts.foldl (next env) (init env address xid)).app.lc_outline.get lcid = some (decide (3 ≤ rounds after)) ∧
      (ts.foldl (next env) (init env address xid)).executed.count lcid =
        ((before ++ [MsTurn.received r]).foldl (next env) (init env address xid)).executed.count lcid +
          if 3 ≤ rounds after then 1 else 0 := by
  have hempty : ∀ u, u ∉ (init env address xid).app.local_ctrl_list := fun u => AList.notMem_empty u
  obtain ⟨before, r, after, hts, hsince, hflags, hcount⟩ := missed_run hempty ts hall lcid hreg
  exact ⟨before, r, after, hts, hsince, (flags_eq hflags).1, hcount⟩

/-- Two controllers, of which the second answers after the first round. -/
theorem missed_echoes_detected_silent :
    ∃ before r after, [MsTurn.received (received 0 1 .HelloUp), .received (received 1 1 .HelloUp), .round [some 1, some 2],
        .received (received 1 2 (.EchoReply 0)), .round [some 2, some 1], .round [some 1, some 2]] =
          before ++ MsTurn.received r :: after ∧
      SinceReset (sampleEnv []) (init (sampleEnv []) (fun lc => ("10.0.0.1", 40000 + lc)) fun lc => lc) before r after (some 1) ∧
      ([MsTurn.received (received 0 1 .HelloUp), .received (received 1 1 .HelloUp), .round [some 1, some 2],
        .received (received 1 2 (.EchoReply 0)), .round [some 2, some 1], .round [some 1, some 2]].foldl
          (next (sampleEnv [])) (init (sampleEnv []) (fun lc => ("10.0.0.1", 40000 + lc)) fun lc => lc)).app.lc_outline.get
            (some 1) = some (decide (3 ≤ rounds after)) ∧
      ([MsTurn.received (received 0 1 .HelloUp), .received (received 1 1 .HelloUp), .round [some 1, some 2],
        .received (received 1 2 (.EchoReply 0)), .round [some 2, some 1], .round [some 1, some 2]].foldl
          (next (sampleEnv [])) (init (sampleEnv []) (fun lc => ("10.0.0.1", 40000 + lc)) fun lc => lc)).executed.count
            (some 1) =
        ((before ++ [MsTurn.received r]).foldl (next (sampleEnv []))
          (init (sampleEnv []) (fun lc => ("10.0.0.1", 40000 + lc)) fun lc => lc)).executed.count (some 1) +
            if 3 ≤ rounds after then 1 else 0 :=
  missed_echoes_detected (sampleEnv []) _ _ _ (by decide) (some 1) (by decide)

end

end MsSwitch

end VnfDockerNet
