import VnfDockerNet.PathSound
import VnfDockerNet.BranchSound
import VnfDockerNet.Network

/-!
# A packet between domains

The central controller answers a packet with one flow mod for each domain on the
way. Each local controller turns its own into the rules of a path to a window,
and the rules of all of them carry the packet over the wires to a switch of the
last domain, in whatever order the flow mods are handled.
-/

namespace VnfDockerNet

open Python Networkx Forwarding

namespace Layer2Switch

/-! ## The rules of a switch -/

section
variable {env : LocalEnv} {s s' : Layer2Switch env.nx.Graph} {mac : Bytes}

def lastRules (mac : Bytes) (out : List (Nat × SwitchMsg)) : Nat → Option (List OFPActionOutput) :=
  installAll (fun _ => none) (rulesFor mac out)

def Prioritised (s s' : Layer2Switch env.nx.Graph) : Prop := ∃ out, s'.switch_out = s.switch_out ++ out ∧
  ∀ x ∈ out, ∀ buffer_id priority rule actions, x.2 = .FlowMod buffer_id priority rule actions → priority = 1

theorem prioritised_same (h : s'.switch_out = s.switch_out) : Prioritised s s' :=
  ⟨[], by rw [h, List.append_nil], fun _ hx => absurd hx List.not_mem_nil⟩

instance : IsPreorder (Layer2Switch env.nx.Graph) Prioritised where
  refl _ := prioritised_same rfl
  trans _ _ _ h h' := by
    obtain ⟨out, hout, hone⟩ := h
    obtain ⟨out', hout', hone'⟩ := h'
    refine ⟨out ++ out', by rw [hout', hout, List.append_assoc], fun x hx => ?_⟩
    exact (List.mem_append.mp hx).elim (hone x) (hone' x)

theorem prioritised_add_flow (datapath : OfDatapath) (rule : OFPMatch) (actions : List OFPActionOutput) (buffer_id : Option Nat) :
    Moves Prioritised (add_flow env datapath 1 rule actions buffer_id) := by
  refine .modify fun s => ⟨_, rfl, fun x hx b p r a heq => ?_⟩
  cases List.mem_singleton.mp hx
  cases heq
  rfl

theorem prioritised_pathRules (mac : Bytes) : ∀ path, Moves Prioritised (pathRules env mac path)
  | [] => .pure _
  | [_] => .pure _
  | node :: next :: rest => by
    unfold pathRules
    exact .bind (moves_edgePort _ _) fun _ => .bind (moves_nodeDatapath _) fun _ =>
      .bind (prioritised_add_flow _ _ _ _) fun _ => prioritised_pathRules mac (next :: rest)

theorem prioritised_flow_mod (xid in_dpid out_dpid region_out_port : Nat) :
    Moves Prioritised (cc_flow_mod_handler env xid in_dpid out_dpid region_out_port mac) := by
  have htake : Moves Prioritised (takePending env xid) :=
    moves_takePending (fun _ _ _ => prioritised_same rfl) xid fun _ _ _ => prioritised_same rfl
  unfold cc_flow_mod_handler
  refine .bind .get fun _ => .ite ?_ (.pure _)
  refine .bind .get fun _ => .bind (.item _ _) fun in_dp => .bind htake fun p => .bind .get fun s => ?_
  cases env.nx.shortest_path s.net (.dpid in_dpid) (.dpid out_dpid) with
  | error e => cases e <;> first | exact .pure _ | exact .throw _
  | ok path =>
    refine .ite ?_ ?_
    · unfold installBuffered
      refine .ite (prioritised_add_flow _ _ _ _) ?_
      cases path[path.idxOf (.dpid in_dpid) + 1]? with
      | none => exact .throw _
      | some next_hop =>
        exact .bind (moves_edgePort _ _) fun _ => .bind (prioritised_add_flow _ _ _ _) fun _ =>
          .bind (prioritised_pathRules _ _) fun _ => .bind .get fun _ => .bind (.item _ _) fun _ => prioritised_add_flow _ _ _ _
    · unfold installUnbuffered
      refine .ite (prioritised_add_flow _ _ _ _) ?_
      refine .bind (prioritised_pathRules _ _) fun _ => .bind .get fun _ => .bind (.item _ _) fun _ =>
        .bind (prioritised_add_flow _ _ _ _) fun _ => .ite (.modify fun s => ⟨_, rfl, fun x hx b p r a heq => ?_⟩) (.throw _)
      cases List.mem_singleton.mp hx
      cases heq

theorem rulesFor_of_rulesIn {rules : List (Nat × List OFPActionOutput)} : ∀ {out : List (Nat × SwitchMsg)},
    (∀ x ∈ out, ∀ b p r a, x.2 = .FlowMod b p r a → p = 1) →
    rulesIn out = rules.map (fun r => (r.1, [.eth_dst mac], r.2)) → rulesFor mac out = rules := by
  intro out
  induction out generalizing rules with
  | nil =>
    intro _ h
    have hnil : rules = [] := List.map_eq_nil_iff.mp h.symm
    rw [hnil]
    rfl
  | cons x out ih =>
    intro hone h
    have hone' : ∀ y ∈ out, ∀ b p r a, y.2 = .FlowMod b p r a → p = 1 := fun y hy => hone y (List.mem_cons_of_mem x hy)
    obtain ⟨d, msg⟩ := x
    cases msg with
    | FlowMod b p r a =>
      have hp : p = 1 := hone _ (List.mem_cons_self ..) b p r a rfl
      subst hp
      cases rules with
      | nil => cases h
      | cons rule rules =>
        obtain ⟨hhead, htail⟩ := List.cons.inj (show (d, r, a) :: rulesIn out = _ :: _ from h)
        cases hhead
        have hfirst : rulesFor mac [(rule.1, .FlowMod b 1 [.eth_dst mac] rule.2)] = [rule] := by
          rw [rulesFor_flowMod, if_pos rfl]
        show rulesFor mac ([(rule.1, .FlowMod b 1 [.eth_dst mac] rule.2)] ++ out) = rule :: rules
        rw [rulesFor_append, hfirst, ih hone' htail]
        rfl
    | _ => exact ih hone' h

def LastRules (s s' : Layer2Switch env.nx.Graph) (mac : Bytes) (region_out_port : Nat) (path : List Node) : Prop :=
  ∃ rules, PathRules s.net region_out_port path rules ∧ ∀ r ∈ rules, lastRules mac s'.switch_out r.1 = some r.2

section
variable {in_dpid out_dpid region_out_port : Nat} {path : List Node}

theorem lastRules_of_programs (hpath : env.nx.shortest_path s.net (.dpid in_dpid) (.dpid out_dpid) = .ok path)
    {released : List (Nat × SwitchMsg)} (hprog : Programs s s' mac region_out_port path released) (hone : Prioritised s s') :
    LastRules s s' mac region_out_port path := by
  obtain ⟨out, rules, hout, -, hrulesIn, hrules⟩ := hprog
  obtain ⟨out', hout', hone⟩ := hone
  have hsame : out = out' := List.append_cancel_left (hout.symm.trans hout')
  subst hsame
  refine ⟨rules, hrules, fun r hr => ?_⟩
  have hnodup : (rules.map Prod.fst).Nodup := by
    have hpathNodup := (env.nx.shortest_path_ok _ _ _ _ hpath).nodup
    rw [← pathRules_switches hrules] at hpathNodup
    rw [show rules.map (fun r => Node.dpid r.1) = (rules.map Prod.fst).map Node.dpid from List.map_map.symm] at hpathNodup
    exact hpathNodup.of_map _
  unfold lastRules
  rw [hout, rulesFor_append, rulesFor_of_rulesIn hone hrulesIn]
  unfold installAll
  rw [List.foldl_append]
  exact installAll_of_mem hnodup hr

theorem wp_flow_mod_last_rules (h : Ready s) (xid : Nat) (hwin : out_dpid ∈ s.dpid_to_is_win) (hin : in_dpid ∈ s.datapaths)
    (hpath : env.nx.shortest_path s.net (.dpid in_dpid) (.dpid out_dpid) = .ok path) (hconn : Connects s path) :
    wp (cc_flow_mod_handler env xid in_dpid out_dpid region_out_port mac) s
      (fun _ s' => LastRules s s' mac region_out_port path) fun _ s' => LastRules s s' mac region_out_port path := by
  refine wp_mono (wp_and (wp_flow_mod_sends h xid hwin hin hpath) (prioritised_flow_mod xid in_dpid out_dpid region_out_port s))
    (fun _ s' hs => ?_) fun _ s' hs => ?_
  · obtain ⟨⟨-, _, hprog⟩, hone⟩ := hs
    exact lastRules_of_programs hpath hprog hone
  · obtain ⟨hends, hone⟩ := hs
    rcases hends with ⟨hbroken, -⟩ | ⟨-, -, _, hprog⟩
    · exact absurd hconn hbroken
    · exact lastRules_of_programs hpath hprog hone

end

end

end Layer2Switch

namespace Network

variable {cenv : Env} {env : Nat → LocalEnv}

/-! ## Handling the flow mods -/

def handleSent (cenv : Env) (env : Nat → LocalEnv) (locals : (lc : Nat) → Layer2Switch (env lc).nx.Graph) (d : Nat × Sent) :
    (lc : Nat) → Layer2Switch (env lc).nx.Graph :=
  Function.update locals d.2.lc (Layer2Switch.step (env d.2.lc) (locals d.2.lc) (.Downlink d.1 (d.2.event cenv.host)))

theorem handleSent_other {locals : (lc : Nat) → Layer2Switch (env lc).nx.Graph} {lc : Nat} : ∀ {ds : List (Nat × Sent)},
    (∀ d ∈ ds, d.2.lc ≠ lc) → ds.foldl (handleSent cenv env) locals lc = locals lc := by
  intro ds
  induction ds generalizing locals with
  | nil => exact fun _ => rfl
  | cons d ds ih =>
    intro h
    rw [List.foldl_cons, ih fun d' hd' => h d' (List.mem_cons_of_mem d hd')]
    exact Function.update_of_ne (h d (List.mem_cons_self ..)).symm _ _

theorem handleSent_each {locals : (lc : Nat) → Layer2Switch (env lc).nx.Graph} {d : Nat × Sent} : ∀ {ds : List (Nat × Sent)},
    (ds.map fun d => d.2.lc).Nodup → d ∈ ds → ds.foldl (handleSent cenv env) locals d.2.lc =
      Layer2Switch.step (env d.2.lc) (locals d.2.lc) (.Downlink d.1 (d.2.event cenv.host)) := by
  intro ds
  induction ds generalizing locals with
  | nil => exact fun _ hd => absurd hd List.not_mem_nil
  | cons d' ds ih =>
    intro hnodup hd
    obtain ⟨hnew, hnodup⟩ := List.nodup_cons.mp hnodup
    have hother : ∀ d'' ∈ ds, d''.2.lc ≠ d'.2.lc := fun d'' hd'' heq => hnew (List.mem_map.mpr ⟨d'', hd'', heq⟩)
    rw [List.foldl_cons]
    rcases List.mem_cons.mp hd with rfl | hd
    · rw [handleSent_other hother]
      exact Function.update_self ..
    · rw [ih hnodup hd]
      unfold handleSent
      rw [Function.update_of_ne (hother d hd)]

/-! ## The wires -/

/-- The wires under the graphs: each switch is connected to one controller, and
the links of the local controllers and those between domains are wires. -/
structure Underlay (cenv : Env) (env : Nat → LocalEnv) (wire : LinkEnd → Option LinkEnd) (owner : Nat → Nat)
    (g : cenv.nx.Graph) (ctrls : Dict Lcid Nat) (locals : (lc : Nat) → Layer2Switch (env lc).nx.Graph) : Prop where
  own : ∀ lc d, d ∈ (locals lc).datapaths → owner d = lc
  inner : ∀ lc d d' port, (env lc).nx.edge (locals lc).net (.dpid d) (.dpid d') = some (some port) →
    ∃ in_port, wire ⟨d, port⟩ = some ⟨d', in_port⟩
  outer : ∀ u v e, cenv.nx.HasEdge g u v e → wire ⟨e.left_dpid, e.out_port⟩ = some ⟨e.right_dpid, e.in_port⟩ ∧
    ctrls.get v = some (owner e.right_dpid)

/-- A packet goes from switch to switch by the rule it finds and the wire at its port. -/
def Passes (wire : LinkEnd → Option LinkEnd) (rule : Nat → Option (List OFPActionOutput)) (d d' : Nat) : Prop :=
  ∃ port in_port, rule d = some [{ port }] ∧ wire ⟨d, port⟩ = some ⟨d', in_port⟩

def Walkable (env : LocalEnv) (s : Layer2Switch env.nx.Graph) : MsgDown → Prop
  | .FlowMod in_dpid out_dpid _ _ _ => out_dpid ∈ s.dpid_to_is_win ∧ in_dpid ∈ s.datapaths ∧
      ∃ path, env.nx.shortest_path s.net (.dpid in_dpid) (.dpid out_dpid) = .ok path ∧ Layer2Switch.Connects s path
  | _ => True

variable {wire : LinkEnd → Option LinkEnd} {owner : Nat → Nat} {rule : Nat → Option (List OFPActionOutput)} {mac : Bytes}

/-! ## One domain -/

section
variable {env : LocalEnv} {s : Layer2Switch env.nx.Graph}

theorem isChain_passes {net : env.nx.Graph} {out_dpid region_out_port t in_port : Nat}
    (hnet : ∀ d d' port, env.nx.edge net (.dpid d) (.dpid d') = some (some port) → ∃ in_port, wire ⟨d, port⟩ = some ⟨d', in_port⟩)
    (hexit : wire ⟨out_dpid, region_out_port⟩ = some ⟨t, in_port⟩) :
    ∀ {path : List Node} {rules : List (Nat × List OFPActionOutput)}, Layer2Switch.PathRules net region_out_port path rules →
      path.getLast? = some (.dpid out_dpid) → (∀ r ∈ rules, rule r.1 = some r.2) →
      (rules.map Prod.fst ++ [t]).IsChain (Passes wire rule)
  | [.dpid d], _, h, hlast, hrule => by
    subst h
    cases hlast
    exact .cons_cons ⟨region_out_port, in_port, hrule _ (List.mem_singleton.mpr rfl), hexit⟩ (.singleton t)
  | .dpid d :: v :: rest, _, h, hlast, hrule => by
    obtain ⟨port, rules, rfl, hedge, hrules⟩ := h
    rw [List.getLast?_cons_cons] at hlast
    have hrest := isChain_passes hnet hexit hrules hlast fun r hr => hrule r (List.mem_cons_of_mem _ hr)
    have hswitches := Layer2Switch.pathRules_switches hrules
    cases rules with
    | nil => cases hswitches
    | cons r rules =>
      cases hswitches
      obtain ⟨p, hwire⟩ := hnet d r.1 port hedge
      exact .cons_cons ⟨port, p, hrule _ (List.mem_cons_self ..), hwire⟩ hrest

def Laid (s : Layer2Switch env.nx.Graph) (rule : Nat → Option (List OFPActionOutput)) : MsgDown → Prop
  | .FlowMod in_dpid out_dpid out_port _ _ => ∃ path rules, Layer2Switch.PathRules s.net out_port path rules ∧
      IsPath (fun u v => (env.nx.edge s.net u v).isSome = true) (.dpid in_dpid) (.dpid out_dpid) path ∧ path.Nodup ∧
      Layer2Switch.Connects s path ∧ ∀ r ∈ rules, rule r.1 = some r.2
  | _ => True

theorem laid_of_step (h : Layer2Switch.Ready s) (now : Nat) {in_dpid out_dpid out_port wildcards : Nat} {ev : Event MsgDown}
    (hev : ev.msg = .FlowMod in_dpid out_dpid out_port mac wildcards) (hwalk : Walkable env s ev.msg) :
    Laid s (Layer2Switch.lastRules mac (Layer2Switch.step env s (.Downlink now ev)).switch_out) ev.msg := by
  obtain ⟨header, msg⟩ := ev
  have hmsg : msg = .FlowMod in_dpid out_dpid out_port mac wildcards := hev
  subst hmsg
  obtain ⟨hwin, hin, path, hpath, hconn⟩ := hwalk
  have hshort := env.nx.shortest_path_ok _ _ _ _ hpath
  have hstep : Layer2Switch.LastRules s (Layer2Switch.step env s (.Downlink now ⟨header, .FlowMod in_dpid out_dpid out_port mac wildcards⟩))
      mac out_port path := by
    refine Layer2Switch.step_of_wp (I := fun s' => Layer2Switch.LastRules s s' mac out_port path) (fun _ h => h) ?_
    exact Layer2Switch.wp_flow_mod_last_rules h header.xid hwin hin hpath hconn
  obtain ⟨rules, hrules, hlast⟩ := hstep
  exact ⟨path, rules, hrules, hshort.1, hshort.nodup, hconn, hlast⟩

end

/-! ## The whole way -/

section
variable {g : cenv.nx.Graph} {ctrls : Dict Lcid Nat} {locals : (lc : Nat) → Layer2Switch (env lc).nx.Graph} {xid : Nat}

theorem flowChain_lcs (hinj : ∀ u v lc, ctrls.get u = some lc → ctrls.get v = some lc → u = v) :
    ∀ {path : List Lcid} {in_dpid : Nat} {msgs : List Sent}, AppManager.FlowChain cenv g xid mac ctrls in_dpid path msgs →
      path.Nodup → (msgs.map Sent.lc).Nodup ∧ ∀ m ∈ msgs, (∃ u ∈ path, ctrls.get u = some m.lc) ∧
        ∃ in_dpid out_dpid out_port wildcards, m.msg = .FlowMod in_dpid out_dpid out_port mac wildcards
  | [], _, _, h, _ => by
    cases h
    exact ⟨.nil, fun m hm => absurd hm List.not_mem_nil⟩
  | [_], _, _, h, _ => by
    cases h
    exact ⟨.nil, fun m hm => absurd hm List.not_mem_nil⟩
  | node :: next :: rest, _, [], h, _ => h.elim
  | node :: next :: rest, _, m :: msgs, h, hnodup => by
    obtain ⟨lc, e, w, hlc, -, rfl, hrest⟩ := h
    obtain ⟨hnew, hnodup⟩ := List.nodup_cons.mp hnodup
    obtain ⟨hdistinct, hmem⟩ := flowChain_lcs hinj hrest hnodup
    refine ⟨List.nodup_cons.mpr ⟨fun hin => ?_, hdistinct⟩, fun m hm => ?_⟩
    · obtain ⟨m, hm, heq⟩ := List.mem_map.mp hin
      obtain ⟨⟨u, hu, hlc'⟩, -⟩ := hmem m hm
      rw [heq] at hlc'
      exact hnew (hinj u node lc hlc' hlc ▸ hu)
    · rcases List.mem_cons.mp hm with rfl | hm
      · exact ⟨⟨node, List.mem_cons_self .., hlc⟩, _, _, _, _, rfl⟩
      · obtain ⟨⟨u, hu, hlc'⟩, hmsg⟩ := hmem m hm
        exact ⟨⟨u, List.mem_cons_of_mem _ hu, hlc'⟩, hmsg⟩

/-- The paths of the domains, one after the other: no switch is on two of them. -/
theorem exists_walk (hwires : Underlay cenv env wire owner g ctrls locals)
    (hinj : ∀ u v lc, ctrls.get u = some lc → ctrls.get v = some lc → u = v) :
    ∀ {path : List Lcid} {in_dpid : Nat} {msgs : List Sent}, AppManager.FlowChain cenv g xid mac ctrls in_dpid path msgs →
      path.Nodup → (∀ u, path.head? = some u → ctrls.get u = some (owner in_dpid)) →
      (∀ m ∈ msgs, Laid (locals m.lc) rule m.msg) → ∀ dst, path.getLast? = some dst →
      ∃ t walk, IsPath (Passes wire rule) in_dpid t walk ∧ walk.Nodup ∧
        (∀ d ∈ walk, ∃ u ∈ path, ctrls.get u = some (owner d)) ∧ ctrls.get dst = some (owner t)
  | [], _, _, _, _, _, _, _, hdst => by cases hdst
  | [node], in_dpid, _, _, _, hhead, _, _, hdst => by
    cases hdst
    have hnode := hhead node rfl
    refine ⟨in_dpid, [in_dpid], ⟨.singleton _, rfl, rfl⟩, List.nodup_singleton _, fun d hd => ?_, hnode⟩
    cases List.mem_singleton.mp hd
    exact ⟨node, List.mem_singleton.mpr rfl, hnode⟩
  | node :: next :: rest, _, [], h, _, _, _, _, _ => h.elim
  | node :: next :: rest, in_dpid, m :: msgs, h, hnodup, hhead, hlaid, dst, hdst => by
    obtain ⟨lc, e, w, hlc, hedge, rfl, hrest⟩ := h
    obtain ⟨hnew, hnodup⟩ := List.nodup_cons.mp hnodup
    obtain ⟨hwire, hnext⟩ := hwires.outer node next e hedge
    have hhead' : ∀ u, (next :: rest).head? = some u → ctrls.get u = some (owner e.right_dpid) := by
      intro u hu
      cases hu
      exact hnext
    obtain ⟨t, walk, hwalk, hwalkNodup, hon, ht⟩ := exists_walk hwires hinj hrest hnodup hhead'
      (fun m hm => hlaid m (List.mem_cons_of_mem _ hm)) dst (by rw [← hdst, List.getLast?_cons_cons])
    obtain ⟨path, rules, hrules, hpath, hpathNodup, hconn, hrule⟩ := hlaid _ (List.mem_cons_self ..)
    have hswitches := Layer2Switch.pathRules_switches hrules
    have howned : ∀ d ∈ rules.map Prod.fst, owner d = lc := by
      intro d hd
      obtain ⟨r, hr, rfl⟩ := List.mem_map.mp hd
      obtain ⟨d', hd', heq⟩ := hconn (.dpid r.1) (hswitches ▸ List.mem_map.mpr ⟨r, hr, rfl⟩)
      cases heq
      exact hwires.own lc _ hd'
    have hchain := isChain_passes (hwires.inner lc) hwire hrules hpath.last hrule
    obtain ⟨hdomain, -, hcross⟩ := List.isChain_append.mp hchain
    refine ⟨t, rules.map Prod.fst ++ walk, ⟨List.isChain_append.mpr ⟨hdomain, hwalk.chain, fun d hd d' hd' => ?_⟩, ?_, ?_⟩, ?_, ?_, ht⟩
    · rw [hwalk.head] at hd'
      cases hd'
      exact hcross d hd _ rfl
    · have hfirst := hpath.head
      rw [← hswitches] at hfirst
      cases rules with
      | nil => cases hfirst
      | cons r rules =>
        cases hfirst
        rfl
    · rw [List.getLast?_append, hwalk.last]
      rfl
    · -- a switch is of one domain
      refine List.nodup_append.mpr ⟨?_, hwalkNodup, fun d hd d' hd' heq => ?_⟩
      · rw [← hswitches, show rules.map (fun r => Node.dpid r.1) = (rules.map Prod.fst).map Node.dpid from List.map_map.symm] at hpathNodup
        exact hpathNodup.of_map _
      · subst heq
        obtain ⟨u, hu, hlc'⟩ := hon d hd'
        rw [howned d hd] at hlc'
        exact hnew (hinj u node lc hlc' hlc ▸ hu)
    · intro d hd
      rcases List.mem_append.mp hd with hd | hd
      · exact ⟨node, List.mem_cons_self .., by rw [howned d hd, hlc]⟩
      · obtain ⟨u, hu, hlc'⟩ := hon d hd
        exact ⟨u, List.mem_cons_of_mem _ hu, hlc'⟩

/-- The rules that the switches have, each from its own controller. -/
def switchRules (owner : Nat → Nat) (mac : Bytes) (locals : (lc : Nat) → Layer2Switch (env lc).nx.Graph) (d : Nat) :
    Option (List OFPActionOutput) := Layer2Switch.lastRules mac (locals (owner d)).switch_out d

theorem laid_switchRules (hown : ∀ lc d, d ∈ (locals lc).datapaths → owner d = lc)
    (hready : ∀ lc, Layer2Switch.Ready (locals lc)) (hinj : ∀ u v lc, ctrls.get u = some lc → ctrls.get v = some lc → u = v)
    {path : List Lcid} {in_dpid : Nat} {msgs : List Sent} (h : AppManager.FlowChain cenv g xid mac ctrls in_dpid path msgs)
    (hnodup : path.Nodup) {ds : List (Nat × Sent)} (hds : (ds.map Prod.snd).Perm msgs)
    (hwalk : ∀ m ∈ msgs, Walkable (env m.lc) (locals m.lc) m.msg) :
    ∀ m ∈ msgs, Laid (locals m.lc) (switchRules owner mac (ds.foldl (handleSent cenv env) locals)) m.msg := by
  intro m hm
  have hlcs : (ds.map fun d => d.2.lc).Nodup := by
    have hperm : ((ds.map Prod.snd).map Sent.lc).Perm (msgs.map Sent.lc) := hds.map _
    rw [List.map_map] at hperm
    exact hperm.nodup_iff.mpr (flowChain_lcs hinj h hnodup).1
  obtain ⟨d, hd, rfl⟩ := List.mem_map.mp (hds.mem_iff.mpr hm)
  obtain ⟨a, b, c, w, hmsg⟩ := ((flowChain_lcs hinj h hnodup).2 _ hm).2
  have hwalk' : Walkable (env d.2.lc) (locals d.2.lc) (d.2.event cenv.host).msg := hwalk _ hm
  have hlaid : Laid (locals d.2.lc) _ (d.2.event cenv.host).msg := laid_of_step (hready d.2.lc) d.1 hmsg hwalk'
  rw [← handleSent_each hlcs hd] at hlaid
  show Laid _ _ (d.2.event cenv.host).msg
  rw [show (d.2.event cenv.host).msg = .FlowMod a b c mac w from hmsg] at hlaid ⊢
  obtain ⟨walk, rules, hrules, hpath, hwalkNodup, hconn, hrule⟩ := hlaid
  refine ⟨walk, rules, hrules, hpath, hwalkNodup, hconn, fun r hr => ?_⟩
  -- the switches of the path are this controller's
  obtain ⟨d', hd', heq⟩ := hconn (.dpid r.1) (Layer2Switch.pathRules_switches hrules ▸ List.mem_map.mpr ⟨r, hr, rfl⟩)
  cases heq
  unfold switchRules
  rw [hown _ _ hd']
  exact hrule r hr

end

theorem ctrls_injective {cenv : Env} {s : AppManager cenv.nx.Graph} (h : AppManager.Registered s) (u v : Lcid) (lc : Nat)
    (hu : s.local_ctrl_list.get u = some lc) (hv : s.local_ctrl_list.get v = some lc) : u = v :=
  (h.ctrl u lc hu).1.symm.trans (h.ctrl v lc hv).1

theorem packet_in_sends_chain {s : AppManager cenv.nx.Graph} (hinv : AppManager.TopoInv s) {hosts : Dict Bytes Lcid}
    {lc xid in_dpid : Nat} {src_mac dst_mac : Bytes} {src_lcid dst_lcid : Lcid} {path : List Lcid}
    (hsrc : hosts.get src_mac = some src_lcid) (hdst : hosts.get dst_mac = some dst_lcid) (hne : (s.lcs lc).id ≠ dst_lcid)
    (hpath : cenv.nx.shortest_path s.LC_LEVEL_TOPO (s.lcs lc).id dst_lcid = .ok path)
    (hlinked : AppManager.Linked cenv s.LC_LEVEL_TOPO xid dst_mac src_lcid dst_lcid in_dpid in_dpid path) :
    ∃ s' msgs, AppManager._tflcp_packet_in_handler cenv lc xid in_dpid src_mac dst_mac { s with host_to_lcid := hosts } = .ok () s' ∧
      s'.sent = s.sent ++ msgs ∧ AppManager.FlowChain cenv s.LC_LEVEL_TOPO xid dst_mac s.local_ctrl_list in_dpid path msgs := by
  have hshort := (cenv.nx.shortest_path_ok _ _ _ _ hpath).1
  have hends : ∀ u v a, cenv.nx.HasEdge s.LC_LEVEL_TOPO u v a → ∃ l, s.local_ctrl_list.get u = some l ∧ (s.lcs l).id = u := by
    intro u v a ha
    obtain ⟨l, hl⟩ := Dict.mem_iff_get.mp (hinv.wired.ends u v a ha).1
    exact ⟨l, hl, (hinv.registered.ctrl u l hl).1⟩
  have hsends := (AppManager.dispatchPath_iff path dst_lcid in_dpid in_dpid
    { s with host_to_lcid := hosts, UPDATE_COUNTER := s.UPDATE_COUNTER + 1 } rfl rfl hshort.chain hends).mpr hlinked
  have hhandler : wp (AppManager._tflcp_packet_in_handler cenv lc xid in_dpid src_mac dst_mac) { s with host_to_lcid := hosts }
      (fun _ s' => ∃ msgs, s'.sent = s.sent ++ msgs ∧
        AppManager.FlowChain cenv s.LC_LEVEL_TOPO xid dst_mac s.local_ctrl_list in_dpid path msgs) fun _ _ => False := by
    unfold AppManager._tflcp_packet_in_handler
    simp only [wp_bind, wp_modify, wp_get, hsrc, hdst, hne, hpath, if_false, FLOW_DISPATCH_STEPBYSTEP, Bool.false_eq_true, hshort.last]
    exact hsends
  obtain ⟨_, s', hok, msgs, hmsgs⟩ := ok_of_wp hhandler
  exact ⟨s', msgs, hok, hmsgs⟩

/-- **A packet between domains arrives**: when the edges of a packet's path fit
together and each local controller knows its way to the window, the flow mods,
handled in any order, leave rules that carry the packet over the wires, past no
switch twice, to a switch of the destination's controller. -/
theorem packet_crosses_domains (cenv : Env) (env : Nat → LocalEnv) (address : Nat → String × Nat) (cxid lxid : Nat → Nat)
    (rs : List Received)
    (hrun : Runs.Allowed (AppManager.receive cenv) (AppManager.Accepts cenv) (AppManager.init cenv address cxid) rs)
    {s : AppManager cenv.nx.Graph} (hs : s = rs.foldl (AppManager.receive cenv) (AppManager.init cenv address cxid))
    (es : Nat → List LocalEvent) {locals : (lc : Nat) → Layer2Switch (env lc).nx.Graph}
    (hlocals : ∀ lc, locals lc = (es lc).foldl (Layer2Switch.step (env lc)) (Layer2Switch.init (env lc) (lxid lc)))
    (hosts : Dict Bytes Lcid) (lc xid in_dpid : Nat) (src_mac dst_mac : Bytes) (src_lcid dst_lcid : Lcid) (path : List Lcid)
    (hsrc : hosts.get src_mac = some src_lcid) (hdst : hosts.get dst_mac = some dst_lcid) (hne : (s.lcs lc).id ≠ dst_lcid)
    (hpath : cenv.nx.shortest_path s.LC_LEVEL_TOPO (s.lcs lc).id dst_lcid = .ok path)
    (hlinked : AppManager.Linked cenv s.LC_LEVEL_TOPO xid dst_mac src_lcid dst_lcid in_dpid in_dpid path)
    (wire : LinkEnd → Option LinkEnd) (owner : Nat → Nat)
    (hwires : Underlay cenv env wire owner s.LC_LEVEL_TOPO s.local_ctrl_list locals) :
    ∃ s' msgs, AppManager._tflcp_packet_in_handler cenv lc xid in_dpid src_mac dst_mac { s with host_to_lcid := hosts } = .ok () s' ∧
      s'.sent = s.sent ++ msgs ∧
      ∀ ds : List (Nat × Sent), (ds.map Prod.snd).Perm msgs → (∀ m ∈ msgs, Walkable (env m.lc) (locals m.lc) m.msg) →
        ∃ t walk, IsPath (Passes wire (switchRules owner dst_mac (ds.foldl (handleSent cenv env) locals))) in_dpid t walk ∧
          walk.Nodup ∧ s.local_ctrl_list.get dst_lcid = some (owner t) := by
  have hinv : AppManager.TopoInv s := by
    rw [hs]
    exact Runs.Allowed.invariant _ (fun _ _ => AppManager.topoInv_step) (AppManager.topoInv_init address cxid) hrun
  have hready : ∀ lc, Layer2Switch.Ready (locals lc) := by
    intro lc
    rw [hlocals]
    exact Layer2Switch.ready_run _ _
  obtain ⟨s', msgs, hok, hsent, hchain⟩ := packet_in_sends_chain hinv hsrc hdst hne hpath hlinked
  refine ⟨s', msgs, hok, hsent, fun ds hds hwalk => ?_⟩
  have hinj := ctrls_injective hinv.registered
  have hshort := cenv.nx.shortest_path_ok _ _ _ _ hpath
  have hlaid := laid_switchRules hwires.own hready hinj hchain hshort.nodup hds hwalk
  have hfirst : ∀ u, path.head? = some u → s.local_ctrl_list.get u = some (owner in_dpid) := by
    obtain ⟨v, rest, rfl⟩ := hshort.1.first_hop hne
    intro u hu
    cases hu
    cases msgs with
    | nil => exact hchain.elim
    | cons m msgs =>
      obtain ⟨l, e, w, hl, -, rfl, -⟩ := hchain
      rw [hl, hwires.own l in_dpid (hwalk _ (List.mem_cons_self ..)).2.1]
  obtain ⟨t, walk, hpasses, hnodup, -, ht⟩ := exists_walk hwires hinj hchain hshort.nodup hfirst hlaid dst_lcid hshort.1.last
  exact ⟨t, walk, hpasses, hnodup, ht⟩

/-- Switch 15 is wired to 11, and 11 to switch 12 of the other domain. -/
def crossWire (k : LinkEnd) : Option LinkEnd :=
  ([(⟨15, 1⟩, ⟨11, 3⟩), (⟨11, 3⟩, ⟨15, 1⟩), (⟨11, 1⟩, ⟨12, 2⟩), (⟨12, 2⟩, ⟨11, 1⟩)] : List (LinkEnd × LinkEnd)).lookup k

def crossOwner (d : Nat) : Nat := if d = 15 ∨ d = 11 then 0 else 1

def crossRun : Nat → List LocalEvent
  | 0 => [.SwitchFeatures ⟨15, "10.0.0.1"⟩, .SwitchFeatures ⟨11, "10.0.0.1"⟩, .TopologyChange ⟨[15, 11], [], [⟨⟨15, 1⟩, ⟨11, 3⟩⟩]⟩]
  | _ => []

def crossLocals (lc : Nat) : Layer2Switch Layer2Switch.sampleLocalEnv.nx.Graph :=
  (crossRun lc).foldl (Layer2Switch.step Layer2Switch.sampleLocalEnv) (Layer2Switch.init Layer2Switch.sampleLocalEnv 0)

def alongWire (net : Layer2Switch.sampleLocalEnv.nx.Graph) (x : Node × Node) : Bool :=
  match x.1, x.2, Layer2Switch.sampleLocalEnv.nx.edge net x.1 x.2 with
  | .dpid d, .dpid d', some (some port) => (crossWire ⟨d, port⟩).map LinkEnd.dpid = some d'
  | _, _, _ => true

def crossCentral : AppManager (sampleEnv AppManager.linkReports).nx.Graph :=
  AppManager.transitRun.foldl (AppManager.receive (sampleEnv AppManager.linkReports)) (sampleInit AppManager.linkReports)

theorem crossUnderlay : Underlay (sampleEnv AppManager.linkReports) (fun _ => Layer2Switch.sampleLocalEnv) crossWire crossOwner
    crossCentral.LC_LEVEL_TOPO crossCentral.local_ctrl_list crossLocals := by
  refine ⟨fun lc d hd => ?_, fun lc d d' port hedge => ?_, fun u v e he => ?_⟩
  · cases lc with
    | zero =>
      have hall : ∀ d ∈ (crossLocals 0).datapaths.keys, crossOwner d = 0 := by decide +kernel
      exact hall d (AList.mem_keys.mpr hd)
    | succ lc => exact absurd hd (AList.notMem_empty d)
  · cases lc with
    | zero =>
      have hall : ∀ x ∈ (crossLocals 0).net.pairs, alongWire (crossLocals 0).net x = true := by decide +kernel
      have hpair : ((.dpid d, .dpid d') : Node × Node) ∈ (crossLocals 0).net.pairs :=
        (crossLocals 0).net.mem_pairs _ _ (congrArg Option.isSome hedge)
      have h := hall _ hpair
      unfold alongWire at h
      rw [hedge] at h
      obtain ⟨k, hk, hd⟩ := Option.map_eq_some_iff.mp (of_decide_eq_true h)
      exact ⟨k.port_no, by rw [hk, ← hd]⟩
    | succ lc => cases hedge
  · have hall : ∀ x ∈ (sampleEnv AppManager.linkReports).nx.edges crossCentral.LC_LEVEL_TOPO,
        crossWire ⟨x.2.2.left_dpid, x.2.2.out_port⟩ = some ⟨x.2.2.right_dpid, x.2.2.in_port⟩ ∧
          crossCentral.local_ctrl_list.get x.2.1 = some (crossOwner x.2.2.right_dpid) := by decide +kernel
    exact hall (u, v, e) ((sampleEnv AppManager.linkReports).nx.mem_edges.mpr he)

def sentAfter {Γ : Type} : EStateM.Result Exn (AppManager Γ) Unit → List Sent
  | .ok _ s' | .error _ s' => s'.sent

def crossFlowMod : Sent := ⟨0, 9, .FlowMod 15 11 1 AppManager.dstMac 1⟩

def crossAfter : Nat → Layer2Switch Layer2Switch.sampleLocalEnv.nx.Graph :=
  [((0 : Nat), crossFlowMod)].foldl (handleSent (sampleEnv AppManager.linkReports) fun _ => Layer2Switch.sampleLocalEnv) crossLocals

theorem packet_crosses_domains_window :
    ∃ t walk, IsPath (Passes crossWire (switchRules crossOwner AppManager.dstMac crossAfter)) 15 t walk ∧ walk.Nodup ∧
      crossCentral.local_ctrl_list.get (some 2) = some (crossOwner t) := by
  have hlinked : AppManager.Linked (sampleEnv AppManager.linkReports) crossCentral.LC_LEVEL_TOPO 9 AppManager.dstMac
      (some 1) (some 2) 15 15 [some 1, some 2] := by
    refine ⟨by rw [if_pos rfl], ⟨11, 1, 12, 2⟩, by decide +kernel, ?_, ⟨11, 1, 12, 2⟩, ⟨0, by decide +kernel⟩, rfl, rfl, trivial⟩
    rw [if_pos rfl]
    decide +kernel
  have hs : crossCentral = AppManager.transitRun.foldl (AppManager.receive (sampleEnv AppManager.linkReports))
      (AppManager.init (sampleEnv AppManager.linkReports) (fun lc => ("10.0.0.1", 40000 + lc)) fun lc => lc) := rfl
  obtain ⟨s', msgs, hok, hsent, hcross⟩ := packet_crosses_domains (sampleEnv AppManager.linkReports)
    (fun _ => Layer2Switch.sampleLocalEnv) _ _ (fun _ => 0) AppManager.transitRun (by decide +kernel) hs crossRun (fun _ => rfl)
    (AppManager.hostsAt 1) 0 9 15 AppManager.srcMac AppManager.dstMac (some 1) (some 2) [some 1, some 2] (by decide) (by decide)
    (by decide +kernel) (by decide +kernel) hlinked crossWire crossOwner crossUnderlay
  have hall : sentAfter (AppManager._tflcp_packet_in_handler (sampleEnv AppManager.linkReports) 0 9 15 AppManager.srcMac
      AppManager.dstMac { crossCentral with host_to_lcid := AppManager.hostsAt 1 }) = crossCentral.sent ++ [crossFlowMod] := by
    decide +kernel
  rw [hok] at hall
  have hmsgs : msgs = [crossFlowMod] := List.append_cancel_left (hsent.symm.trans hall)
  subst hmsgs
  refine hcross [(0, crossFlowMod)] (List.Perm.refl _) fun m hm => ?_
  cases List.mem_singleton.mp hm
  exact ⟨by decide +kernel, by decide +kernel, [.dpid 15, .dpid 11], by decide +kernel, by decide +kernel⟩

end Network

end VnfDockerNet
