import VnfDockerNet.DiscoverySound

/-!
# Links over fixed wires

Each port of a switch is at one end of at most one wire, and a discovery packet
comes out of the wire it was sent into. Then every link is a wire, the table of
peers has exactly the links, and so have the observers.
-/

namespace VnfDockerNet

open Python

namespace Switches

variable {env : RyuEnv} {s s' : Switches} {wire : LinkEnd → Option LinkEnd} {P : LinkEnd → Prop}

structure LinkInv (wire : LinkEnd → Option LinkEnd) (P : LinkEnd → Prop) (links : LinkState) (told : List Link) : Prop where
  wired : ∀ a b, ⟨a, b⟩ ∈ links.dict → wire a = some b
  apart : ∀ a b, ⟨a, b⟩ ∈ links.dict → a ≠ b
  known : ∀ a b, ⟨a, b⟩ ∈ links.dict → P a
  peer : ∀ a b, links.map.get a = some b ↔ ⟨a, b⟩ ∈ links.dict
  nodup : told.Nodup
  told : ∀ link, link ∈ told ↔ link ∈ links.dict

section
variable {links : LinkState} {told : List Link} {a b : LinkEnd}

theorem linkInv_init : LinkInv wire P {} [] := by
  have hnone : ∀ link : Link, link ∉ ({} : LinkState).dict := fun link => AList.notMem_empty link
  refine ⟨fun a b h => absurd h (hnone _), fun a b h => absurd h (hnone _), fun a b h => absurd h (hnone _), fun a b => ?_, .nil, fun l => ?_⟩
  · exact ⟨(fun h => by cases h), fun h => absurd h (hnone _)⟩
  · exact ⟨fun h => absurd h List.not_mem_nil, fun h => absurd h (hnone _)⟩

theorem LinkInv.mono (h : LinkInv wire P links told) {P' : LinkEnd → Prop} (hP : ∀ k, P k → P' k) : LinkInv wire P' links told :=
  { h with known := fun a b hl => hP a (h.known a b hl) }

theorem LinkInv.add (h : LinkInv wire P links told) (hwire : wire a = some b) (hne : a ≠ b) (hP : P a) (time : Nat) :
    LinkInv wire P ⟨links.dict.insert ⟨a, b⟩ time, links.map.insert a b⟩
      (if ⟨a, b⟩ ∈ links.dict then told else ⟨a, b⟩ :: told) := by
  refine ⟨fun c d hl => ?_, fun c d hl => ?_, fun c d hl => ?_, fun c d => ?_, ?_, fun link => ?_⟩
  · rcases (AList.mem_insert _).mp hl with hl | hl
    · cases hl
      exact hwire
    · exact h.wired c d hl
  · rcases (AList.mem_insert _).mp hl with hl | hl
    · cases hl
      exact hne
    · exact h.apart c d hl
  · rcases (AList.mem_insert _).mp hl with hl | hl
    · cases hl
      exact hP
    · exact h.known c d hl
  · show Dict.get (links.map.insert a b) c = some d ↔ _ ∈ links.dict.insert _ time
    rw [Dict.get_insert, AList.mem_insert, Link.mk.injEq]
    by_cases hc : c = a
    · subst hc
      rw [if_pos rfl, Option.some.injEq]
      -- another link of this end is the same wire
      refine ⟨fun hd => Or.inl ⟨rfl, hd.symm⟩, fun hl => ?_⟩
      rcases hl with ⟨-, hd⟩ | hl
      · exact hd.symm
      · exact Option.some.inj (hwire.symm.trans (h.wired c d hl))
    · rw [if_neg hc, h.peer]
      simp [hc]
  · split
    · exact h.nodup
    · rename_i hnew
      exact List.nodup_cons.mpr ⟨fun hmem => hnew ((h.told _).mp hmem), h.nodup⟩
  · show _ ↔ link ∈ links.dict.insert _ time
    rw [AList.mem_insert]
    split
    · rename_i hold
      rw [h.told]
      exact ⟨Or.inr, fun hl => hl.elim (fun hl => hl ▸ hold) id⟩
    · rw [List.mem_cons, h.told]

theorem LinkInv.congr (h : LinkInv wire P links told) {links' : LinkState} (hdict : ∀ link, link ∈ links'.dict ↔ link ∈ links.dict)
    (hmap : ∀ c, links'.map.get c = links.map.get c) : LinkInv wire P links' told := by
  refine ⟨fun a b hab => h.wired a b ((hdict _).mp hab), fun a b hab => h.apart a b ((hdict _).mp hab),
    fun a b hab => h.known a b ((hdict _).mp hab), fun a b => ?_, h.nodup, fun l => (h.told l).trans (hdict l).symm⟩
  rw [hmap, h.peer, hdict]

theorem LinkInv.drop (h : LinkInv wire P links told) (hab : ⟨a, b⟩ ∈ links.dict) :
    LinkInv wire (fun k => k ≠ a ∧ P k) ⟨links.dict.erase ⟨a, b⟩, links.map.erase a⟩ (told.erase ⟨a, b⟩) := by
  have hold : ∀ {l : Link}, l ∈ links.dict.erase ⟨a, b⟩ → l ≠ ⟨a, b⟩ ∧ l ∈ links.dict := fun hl => AList.mem_erase.mp hl
  have hfrom : ∀ d, ⟨a, d⟩ ∈ links.dict → d = b := fun d hd =>
    Option.some.inj ((h.wired a d hd).symm.trans (h.wired a b hab))
  refine ⟨fun c d hl => h.wired c d (hold hl).2, fun c d hl => h.apart c d (hold hl).2, fun c d hl => ?_, fun c d => ?_, ?_, fun link => ?_⟩
  · obtain ⟨hne, hl'⟩ := hold hl
    refine ⟨?_, h.known c d hl'⟩
    rintro rfl
    exact hne (by rw [hfrom d hl'])
  · show Dict.get (links.map.erase a) c = some d ↔ _ ∈ links.dict.erase _
    rw [Dict.get_erase, AList.mem_erase, ne_eq, Link.mk.injEq]
    by_cases hc : c = a
    · subst hc
      rw [if_pos rfl]
      refine ⟨(fun hd => by cases hd), fun hl => ?_⟩
      exact absurd ⟨rfl, hfrom d hl.2⟩ hl.1
    · rw [if_neg hc, h.peer]
      simp [hc]
  · exact h.nodup.erase _
  · show _ ↔ link ∈ links.dict.erase _
    rw [h.nodup.mem_erase_iff, AList.mem_erase, h.told]

theorem LinkInv.drop_reverse (h : LinkInv wire P links told) (hwire : wire a = some b) :
    LinkInv wire P ⟨links.dict.erase ⟨a, b⟩, links.map.erase a⟩
      (match links.map.get a with | none => told | some peer => told.erase ⟨a, peer⟩) := by
  cases hpeer : links.map.get a with
  | none =>
    have hno : ⟨a, b⟩ ∉ links.dict := by
      intro hab
      rw [(h.peer a b).mpr hab] at hpeer
      cases hpeer
    refine h.congr (fun link => ?_) fun c => ?_
    · show link ∈ links.dict.erase _ ↔ _
      rw [AList.mem_erase]
      exact ⟨And.right, fun hl => ⟨fun heq => hno (heq ▸ hl), hl⟩⟩
    · show Dict.get (links.map.erase a) c = _
      rw [Dict.get_erase]
      split
      · rename_i hc
        rw [hc, hpeer]
      · rfl
  | some peer =>
    have hab := (h.peer a peer).mp hpeer
    have hpeer' : peer = b := Option.some.inj ((h.wired a peer hab).symm.trans hwire)
    subst hpeer'
    exact (h.drop hab).mono fun k hk => hk.2

end

/-! ## Statements that leave the links alone -/

structure OffLinks (s s' : Switches) : Prop where
  links : s'.links = s.links
  told : linksTold s'.events = linksTold s.events
  listed : ∀ k, Listed s.port_state k → Listed s'.port_state k

instance : IsPreorder Switches OffLinks where
  refl _ := ⟨rfl, rfl, fun _ h => h⟩
  trans _ _ _ h h' := ⟨h'.links.trans h.links, h'.told.trans h.told, fun k hk => h'.listed k (h.listed k hk)⟩

theorem off_send_event {e : TopologyEvent} (he : ∀ told, tellLink told e = told) : Moves OffLinks (send_event_to_observers e) :=
  .modify fun _ => ⟨rfl, (linksTold_snoc ..).trans (he _), fun _ h => h⟩

theorem off_send_msg (msg : DatapathOut) : Moves OffLinks (send_msg msg) := .modify fun _ => ⟨rfl, rfl, fun _ h => h⟩

theorem off_ports (s : Switches) (ports : PortDataState) : OffLinks s { s with ports } := ⟨rfl, rfl, fun _ h => h⟩

theorem off_hosts (f : Switches → Dict Bytes RyuHost) : Moves OffLinks (modify fun s => { s with hosts := f s } : Stmt PUnit) :=
  .modify fun _ => ⟨rfl, rfl, fun _ h => h⟩

theorem off_learnHost (mac : Bytes) (port : LinkEnd) : Moves OffLinks (learnHost mac port) := by
  refine .bind .get fun s => ?_
  cases s.hosts.get mac with
  | none => exact .bind (off_hosts _) fun _ => off_send_event fun _ => rfl
  | some host => exact .ite (.bind (off_hosts _) fun _ => off_send_event fun _ => rfl) (.pure ())

theorem off_host_discovery (msg : RyuPacketIn) : Moves OffLinks (host_discovery_packet_in_handler env msg) := by
  refine .bind (.orRaise _) fun fields => ?_
  split
  · refine .ite (.pure ()) (.bind (lookups_get_port _ _) fun port => ?_)
    cases port with
    | none => exact .pure ()
    | some port =>
      refine .bind .get fun s => .ite (.bind (off_learnHost _ _) fun _ => ?_) (.pure ())
      exact .ite (.bind (.orRaise _) fun _ => off_hosts _) (.ite (.bind (.orRaise _) fun _ => off_hosts _)
        (.ite (.bind (.orRaise _) fun _ => off_hosts _) (.pure ())))
  · exact .throw _

theorem off_register (dp : RyuDatapath) : Moves OffLinks (_register dp) := by
  refine .modify fun s => ⟨rfl, rfl, fun k hk => ?_⟩
  show Listed (if dp.id ∈ s.port_state then s.port_state else s.port_state.insert dp.id dp.ports) k
  split
  · exact hk
  · rename_i hnew
    refine listed_insert.mpr (Or.inr ⟨fun hd => ?_, hk⟩)
    obtain ⟨state, hstate, -⟩ := hk
    exact hnew (hd ▸ Dict.mem_iff_get.mpr ⟨state, hstate⟩)

theorem off_main_dispatcher (dp : RyuDatapath) : Moves OffLinks (main_dispatcher env dp) := by
  refine .bind .get fun s => .bind ?_ fun _ => .bind (off_register dp) fun _ => .bind (lookups_get_switch dp.id) fun switch => ?_
  · cases s.dps.get dp.id with
    | none => exact .pure ()
    | some old => exact off_send_msg _
  · cases switch with
    | none => exact .throw _
    | some switch =>
      refine .bind (off_send_event fun _ => ?_) fun _ => .ite (.bind (.ite (off_send_msg _) (.pure ())) fun _ => .ite ?_ (.pure ())) (.pure ())
      · split <;> rfl
      · exact moves_forEach (fun p => .ite (.pure ()) (ports_port_added off_ports p)) _

theorem off_setPort (d : Nat) (p : OFPPort) : Moves OffLinks (setPort d p) := by
  intro s
  unfold setPort
  simp only [wp_bind, wp_get, wp_item, wp_modify]
  refine ⟨fun state hstate => ⟨rfl, rfl, fun k hk => ?_⟩, fun _ => refl_of OffLinks s⟩
  refine listed_insert.mpr ?_
  by_cases hd : k.dpid = d
  · have hk := (listed_of_get (hd ▸ hstate)).mp hk
    exact Or.inl ⟨hd, (AList.mem_insert _).mpr (Or.inr hk.1), hk.2⟩
  · exact Or.inr ⟨hd, hk⟩

theorem off_send_lldp_packet (port : LinkEnd) : Moves OffLinks (send_lldp_packet port) := by
  refine .bind (moves_tryKey (ports_lldp_sent off_ports port)) fun data => ?_
  cases data with
  | none => exact .pure ()
  | some data =>
    refine .ite (.pure ()) (.bind .get fun s => ?_)
    cases s.dps.get port.dpid with
    | none => exact .pure ()
    | some dp => exact off_send_msg _

/-! ## Statements that change the links -/

abbrev OverWires (wire : LinkEnd → Option LinkEnd) (P : LinkEnd → Prop) (s : Switches) : Prop := LinkInv wire P s.links (linksTold s.events)

theorem LinkInv.off (h : OverWires wire P s) (hs : OffLinks s s') : OverWires wire P s' := by
  show LinkInv wire P s'.links (linksTold s'.events)
  rw [hs.links, hs.told]
  exact h

theorem wp_move_front_off (h : PortTable env P s.ports s.time) {port : LinkEnd} :
    wp (move_front port) s (fun _ s' => Steady env s s' ∧ OffLinks s s') fun _ _ => False :=
  wp_mono (wp_and (wp_move_front (Or.inl ⟨P, h⟩)) (ports_move_front off_ports port s)) (fun _ _ hs => hs) fun _ _ hs => hs.1

def SameState (s s' : Switches) : Prop := s'.port_state = s.port_state

instance : IsPreorder Switches SameState where
  refl _ := rfl
  trans _ _ _ h h' := Eq.trans h' h

theorem sameState_ports (s : Switches) (ports : PortDataState) : SameState s { s with ports } := rfl

theorem wp_link_down_links (hsym : ∀ a b, wire a = some b → wire b = some a) (h : OverWires wire P s) (port : LinkEnd) :
    wp (_link_down port) s (fun _ => OverWires wire (fun k => k ≠ port ∧ P k)) fun _ _ => True := by
  have hfront : ∀ {P' : LinkEnd → Prop} {s₁ : Switches} (dst : LinkEnd), OverWires wire P' s₁ →
      wp (move_front dst) s₁ (fun _ => OverWires wire P') fun _ _ => True :=
    fun dst h₁ => wp_mono (ports_move_front off_ports dst _) (fun _ _ hs => h₁.off hs) fun _ _ _ => trivial
  unfold _link_down
  rw [wp_bind, wp_tryKey]
  unfold port_deleted delLink delPeer
  simp only [wp_bind, wp_get, wp_item, wp_delItem, wp_modify, wp_pure]
  refine ⟨fun dst hdst => ⟨fun hlink => ⟨fun _ => ?_, fun hno => ?_⟩, fun hno => ?_⟩, fun hnone => ⟨fun _ => ?_, fun hne => absurd rfl hne⟩⟩
  · have h₁ := h.drop hlink
    have hback := hsym _ _ (h.wired port dst hlink)
    have h₂ := h₁.drop_reverse hback
    simp only [send_event_to_observers, wp_modify]
    cases hrev : Dict.get (s.links.map.erase port) dst with
    | none =>
      rw [hrev] at h₂
      refine hfront dst ?_
      show LinkInv wire _ _ (linksTold (s.events ++ [_]))
      rw [linksTold_snoc]
      exact h₂
    | some peer =>
      rw [hrev] at h₂
      refine hfront dst ?_
      show LinkInv wire _ _ (linksTold (s.events ++ [_] ++ [_]))
      rw [linksTold_snoc, linksTold_snoc]
      exact h₂
  · exact absurd (Dict.mem_iff_get.mpr ⟨dst, hdst⟩) hno
  · exact absurd ((h.peer port dst).mp hdst) hno
  · refine { h with known := fun a b hl => ⟨?_, h.known a b hl⟩ }
    rintro rfl
    rw [(h.peer a b).mpr hl] at hnone
    cases hnone

theorem wp_learnLink (h : OverWires wire P s) (hmac : ∀ m h, s.hosts.get m = some h → h.mac = m)
    (htable : ∃ P', PortTable env P' s.ports s.time) {src dst : LinkEnd} (hwire : wire src = some dst) (hne : src ≠ dst) (hsrc : P src) :
    wp (learnLink env src dst) s (fun _ s' => OverWires wire P s') fun _ _ => False := by
  have hold : wp (dropOldLink src dst) s (fun _ s' => s' = s) fun _ _ => False := by
    unfold dropOldLink
    simp only [wp_bind, wp_get]
    cases hpeer : s.links.map.get src with
    | none => rfl
    | some old_peer =>
      have hsame : old_peer = dst := Option.some.inj ((h.wired src old_peer ((h.peer src old_peer).mp hpeer)).symm.trans hwire)
      show wp (if old_peer ≠ dst then _ else pure ()) s _ _
      rw [if_neg (not_not.mpr hsame)]
      rfl
  have hfront : ∀ s₁ : Switches, s₁.ports = s.ports → s₁.time = s.time → OverWires wire P s₁ →
      wp (move_front dst) s₁ (fun _ s' => OverWires wire P s') fun _ _ => False := by
    intro s₁ hports htime h₁
    obtain ⟨P', htable⟩ := htable
    rw [← hports, ← htime] at htable
    exact wp_mono (wp_move_front_off htable) (fun _ _ hs => h₁.off hs.2) fun _ _ h => h
  -- the announcement, and the time of the link
  have hend : ∀ s₁ : Switches, s₁.links = s.links → s₁.ports = s.ports → s₁.time = s.time →
      linksTold s₁.events = (if ⟨src, dst⟩ ∈ s.links.dict then linksTold s.events else ⟨src, dst⟩ :: linksTold s.events) →
      wp (do if ¬ (← update_link src dst) then move_front dst) s₁ (fun _ s' => OverWires wire P s') fun _ _ => False := by
    intro s₁ hlinks hports htime htold
    have h₁ := h.add hwire hne hsrc s₁.time
    simp only [update_link, wp_bind, wp_get, wp_modify, wp_pure]
    rw [wp_ite]
    have hadded : OverWires wire P { s₁ with links := ⟨s₁.links.dict.insert ⟨src, dst⟩ s₁.time, s₁.links.map.insert src dst⟩ } := by
      show LinkInv wire P _ (linksTold s₁.events)
      rw [htold, hlinks]
      exact h₁
    exact ⟨fun _ => hfront _ hports htime hadded, fun _ => hadded⟩
  unfold learnLink
  rw [wp_bind]
  refine wp_mono hold (fun _ s₁ hs => ?_) fun _ _ h => h
  subst hs
  unfold announceLink
  simp only [wp_bind, wp_get]
  rw [wp_ite]
  constructor
  · intro hnew
    simp only [send_event_to_observers, wp_bind, wp_modify]
    refine wp_mono (wp_removeInnerHosts hmac) (fun _ s₂ hs₂ => ?_) fun _ _ h => h
    obtain ⟨hosts, rfl, -⟩ := hs₂
    refine hend _ rfl rfl rfl ?_
    rw [if_neg hnew]
    exact linksTold_snoc ..
  · intro hthere
    exact hend _ rfl rfl rfl (if_pos (not_not.mp hthere)).symm

/-! ## The handlers -/

/-- An arriving discovery packet came out of the wire it was sent into. -/
def Fits (env : RyuEnv) (wire : LinkEnd → Option LinkEnd) (s : Switches) (i : Input) : Prop :=
  Reports env s i ∧
    match i with
    | .LldpPacketIn msg => ∀ d p, Lldp.lldp_parse env.conv msg.data = .ok (d, p) → ∃ port : LinkEnd,
        DatapathOut.LldpOut port.dpid port.port_no msg.data ∈ s.out ∧ wire port = some ⟨msg.dpid, msg.in_port⟩
    | _ => True

/-- The bytes do not parse; the exception is logged. -/
def Unreadable (env : RyuEnv) : Input → Prop
  | .LldpPacketIn msg => ∃ e, Lldp.lldp_parse env.conv msg.data = .error e ∧ ∀ m, e ≠ .LLDPUnknownFormat m
  | .HostPacketIn msg => (∀ dst src ethertype, Lldp.unpack [.s 6, .s 6, .H] (msg.data.take 14) ≠ .ok [dst, .str src, .int ethertype]) ∨
      ∃ e, env.arp_src_ip (msg.data.drop 14) = .error e ∨ env.ipv4_src (msg.data.drop 14) = .error e ∨
        env.ipv6_src (msg.data.drop 14) = .error e
  | _ => False

structure Known (env : RyuEnv) (wire : LinkEnd → Option LinkEnd) (s : Switches) : Prop where
  tables : Tables env s
  hosts : HostsOff s
  links : OverWires wire (Listed s.port_state) s

theorem wp_get_listed (h : Enrolled s) {d n : Nat} {Q : Option RyuPort → Switches → Prop} {E : Exn → Switches → Prop}
    (hnone : Q none s) (hsome : ∀ p, p.key = ⟨d, n⟩ → Listed s.port_state ⟨d, n⟩ → Q (some p) s) : wp (_get_port env d n) s Q E :=
  wp_get_port h (fun _ => hnone) fun p _ _ _ hkey hlisted => hsome p hkey hlisted

theorem wp_lldp_received (h : PortTable env P s.ports s.time) {port : LinkEnd} (hport : P port) :
    wp (tryKey (lldp_received port)) s (fun _ s' => ∃ ports, s' = { s with ports } ∧ PortTable env P ports s.time) fun _ _ => False := by
  obtain ⟨data, hdata⟩ := Dict.mem_iff_get.mp (h.dict_iff.mpr hport)
  rw [wp_tryKey]
  unfold lldp_received
  simp only [setData, wp_bind, wp_get, wp_item_some hdata, wp_modify]
  exact ⟨_, rfl, h.inPlace hdata rfl (Or.inr ⟨rfl, rfl⟩)⟩

theorem wp_lldp_packet_in (h : Known env wire s) {msg : RyuPacketIn} (hfit : Fits env wire s (.LldpPacketIn msg)) :
    wp (lldp_packet_in_handler env msg) s (fun _ s' => OverWires wire (Listed s.port_state) s')
      fun _ s' => s' = s ∧ Unreadable env (.LldpPacketIn msg) := by
  unfold lldp_packet_in_handler
  rw [wp_ite]
  refine ⟨fun _ => ?_, fun _ => h.links⟩
  split
  · exact h.links
  · rename_i e hparse
    exact ⟨rfl, _, hparse, fun m hm => by cases hm⟩
  · rename_i hparse
    exact ⟨rfl, _, hparse, fun m hm => by cases hm⟩
  · rename_i d p hparse
    obtain ⟨port, hsent, hwire⟩ := hfit.2 d p hparse
    -- the packet names the port it was sent out of
    have hport : port = ⟨d, p⟩ := by
      have hframe := h.tables.sent _ _ _ hsent
      rw [hparse] at hframe
      cases hframe
      rfl
    subst hport
    rw [wp_bind]
    refine wp_get_listed h.tables.enrolled h.links fun src hsrc hlisted => ?_
    show wp (if src.dpid = msg.dpid then pure () else _) s _ _
    rw [wp_ite]
    refine ⟨fun _ => h.links, fun hne => ?_⟩
    rw [wp_bind]
    refine wp_mono (wp_lldp_received h.tables.table (hsrc ▸ hlisted)) (fun _ s₁ hs₁ => ?_) fun _ _ h => h.elim
    obtain ⟨ports, rfl, htable⟩ := hs₁
    have henrolled : Enrolled { s with ports } := ⟨h.tables.enrolled.dps, h.tables.enrolled.id, h.tables.enrolled.small, h.tables.enrolled.numbered⟩
    rw [wp_bind]
    refine wp_get_listed henrolled h.links fun dst hdst _ => ?_
    show wp (learnLink env src.key dst.key >>= fun _ => _) _ _ _
    rw [wp_bind, hsrc, hdst]
    have hapart : (⟨d, p⟩ : LinkEnd) ≠ ⟨msg.dpid, msg.in_port⟩ := fun heq =>
      hne ((congrArg LinkEnd.dpid hsrc).trans (congrArg LinkEnd.dpid heq))
    have hlinks : OverWires wire (Listed s.port_state) { s with ports } := h.links
    refine wp_mono (wp_learnLink hlinks h.hosts.mac ⟨_, htable⟩ hwire hapart hlisted) (fun _ s₂ h₂ => ?_) fun _ _ h => h.elim
    have hdrop : wp (if env.explicit_drop then _drop_packet msg else pure ()) s₂ (fun _ s' => OffLinks s₂ s') fun _ _ => False := by
      unfold _drop_packet
      rw [wp_ite, wp_ite]
      exact ⟨fun _ => ⟨fun _ => refl_of OffLinks s₂, fun _ => off_send_msg _ s₂⟩, fun _ => refl_of OffLinks s₂⟩
    exact wp_mono hdrop (fun _ _ hs => h₂.off hs) fun _ _ h => h.elim

theorem wp_link_loop (h : Known env wire s) :
    wp (link_loop env) s (fun _ s' => OverWires wire (Listed s.port_state) s') fun _ _ => False := by
  unfold link_loop
  simp only [wp_bind, wp_get]
  have hnodup : ((env.order.order s.links.dict).filter s.lost).Nodup :=
    ((env.order.order_perm s.links.dict).nodup_iff.mpr s.links.dict.keys_nodup).filter _
  refine wp_mono (wp_forEach (fun done s' => Steady env s s' ∧ OverWires wire (Listed s.port_state) s' ∧
    ∀ link ∈ (env.order.order s.links.dict).filter s.lost, link ∉ done → link ∈ s'.links.dict) ?_ ?_) (fun _ _ hs => hs.2.1) fun _ _ h => h
  · rintro before ⟨src, dst⟩ after s₁ hsplit ⟨hsteady, hlinks, hrest⟩
    have hfresh : (⟨src, dst⟩ : Link) ∉ before := by
      rw [hsplit] at hnodup
      exact (List.nodup_middle.mp hnodup).notMem ∘ List.mem_append_left _
    have hlink := hrest ⟨src, dst⟩ (hsplit ▸ List.mem_append_right _ (List.mem_cons_self ..)) hfresh
    have hpeer := (hlinks.peer src dst).mpr hlink
    have hdropped := (hlinks.drop hlink).mono fun k hk => hk.2
    have hothers : ∀ link ∈ (env.order.order s.links.dict).filter s.lost, link ∉ before ++ [⟨src, dst⟩] →
        link ∈ s₁.links.dict.erase ⟨src, dst⟩ := by
      intro link hl hno
      rw [List.mem_append, not_or, List.mem_singleton] at hno
      exact AList.mem_erase.mpr ⟨hno.2, hrest link hl hno.1⟩
    unfold link_down delLink delPeer rev_link_set_timestamp
    simp only [send_event_to_observers, wp_bind, wp_get, wp_delItem, wp_modify]
    refine ⟨fun _ => ⟨fun _ => ?_, fun hno => hno (Dict.mem_iff_get.mpr ⟨dst, hpeer⟩)⟩, fun hno => hno hlink⟩
    have htells : ∀ links : LinkState, Steady env s₁ { s₁ with links, events := s₁.events ++ [.LinkDelete ⟨src, dst⟩] } := fun links =>
      ⟨rfl, rfl, rfl, switchesTold_snoc .., fun _ h => h, fun _ _ h => h⟩
    have hsteady' := fun links => trans_of (Steady env) hsteady (htells links)
    have htold : linksTold (s₁.events ++ [.LinkDelete ⟨src, dst⟩]) = (linksTold s₁.events).erase ⟨src, dst⟩ := linksTold_snoc ..
    rw [wp_ite]
    constructor
    · intro _
      simp only [wp_bind, wp_modify]
      have hset : LinkInv wire (Listed s.port_state) ⟨if (⟨dst, src⟩ : Link) ∈ s₁.links.dict.erase ⟨src, dst⟩ then
          (s₁.links.dict.erase ⟨src, dst⟩).insert ⟨dst, src⟩ (s.time - LINK_TIMEOUT) else s₁.links.dict.erase ⟨src, dst⟩,
          s₁.links.map.erase src⟩ (linksTold (s₁.events ++ [.LinkDelete ⟨src, dst⟩])) ∧
          ∀ link ∈ (env.order.order s.links.dict).filter s.lost, link ∉ before ++ [⟨src, dst⟩] →
            link ∈ if (⟨dst, src⟩ : Link) ∈ s₁.links.dict.erase ⟨src, dst⟩ then
              (s₁.links.dict.erase ⟨src, dst⟩).insert ⟨dst, src⟩ (s.time - LINK_TIMEOUT) else s₁.links.dict.erase ⟨src, dst⟩ := by
        rw [htold]
        split
        · rename_i hrev
          refine ⟨hdropped.congr (Dict.mem_insert_of_mem hrev _) fun _ => rfl, fun link hl hno => ?_⟩
          exact (Dict.mem_insert_of_mem hrev _ link).mpr (hothers link hl hno)
        · exact ⟨hdropped, hothers⟩
      refine wp_mono (wp_move_front_off ((hsteady' _).table _ h.tables.table)) (fun _ s₂ hs => ⟨trans_of (Steady env) (hsteady' _) hs.1, ?_, ?_⟩)
        fun _ _ h => h
      · exact LinkInv.off hset.1 hs.2
      · intro link hl hno
        rw [hs.2.links]
        exact hset.2 link hl hno
    · intro _
      refine ⟨hsteady' _, ?_, hothers⟩
      show LinkInv wire _ _ (linksTold (s₁.events ++ [.LinkDelete ⟨src, dst⟩]))
      rw [htold]
      exact hdropped
  · exact ⟨refl_of (Steady env) s, h.links, fun link hl _ => env.order.mem.mp (List.mem_filter.mp hl).1⟩

theorem wp_removePorts_links (env : RyuEnv) (hsym : ∀ a b, wire a = some b → wire b = some a) (h : OverWires wire P s) {ports : List RyuPort}
    (hports : ∀ p ∈ ports, p.is_reserved = false) :
    wp (forEach (fun p => if p.is_reserved then pure () else do
      del_port p.key
      _link_down p.key) ports) s
      (fun _ s' => s'.port_state = s.port_state ∧ OverWires wire (fun k => k ∉ ports.map RyuPort.key ∧ P k) s') fun _ _ => True := by
  refine wp_forEach (fun done s' => s'.port_state = s.port_state ∧ OverWires wire (fun k => k ∉ done.map RyuPort.key ∧ P k) s') ?_ ?_
  · rintro before p after s₁ hsplit ⟨hstate, h₁⟩
    rw [hports p (hsplit ▸ List.mem_append_right _ (List.mem_cons_self ..)), if_neg Bool.false_ne_true, wp_bind]
    have hdel : wp (del_port p.key) s₁ (fun _ s' => OffLinks s₁ s' ∧ SameState s₁ s') fun _ s' => OffLinks s₁ s' ∧ SameState s₁ s' := wp_and (ports_del_port off_ports p.key s₁) (ports_del_port sameState_ports p.key s₁)
    refine wp_mono hdel (fun _ s₂ hs => ?_) fun _ _ _ => trivial
    have hsteady : wp (_link_down p.key) s₂ (fun _ s' => Steady env s₂ s') fun _ s' => Steady env s₂ s' := moves_link_down p.key s₂
    have hdown := wp_and (wp_link_down_links hsym (h₁.off hs.1) p.key) hsteady
    refine wp_mono hdown (fun _ s₃ hs₃ => ⟨hs₃.2.port_state.trans (hs.2.trans hstate), ?_⟩) fun _ _ _ => trivial
    refine hs₃.1.mono fun k hk => ?_
    rw [List.map_append, List.mem_append, List.map_singleton, List.mem_singleton]
    exact ⟨fun hmem => hmem.elim hk.2.1 hk.1, hk.2.2⟩
  · exact ⟨rfl, h.mono fun k hk => ⟨List.not_mem_nil, hk⟩⟩

theorem links_dead (hon : env.link_discovery = true) (hsym : ∀ a b, wire a = some b → wire b = some a) (h : Known env wire s) (dp : RyuDatapath) :
    wp (dead_dispatcher env dp) s (fun _ s' => OverWires wire (Listed s'.port_state) s') fun _ _ => True := by
  unfold dead_dispatcher
  rw [wp_bind]
  refine wp_get_switch h.tables.enrolled (fun _ => h.links) fun dp' state hdp' hstate => ?_
  show wp (if dp'.conn = dp.conn then _ else _) s _ _
  rw [wp_ite]
  refine ⟨fun hconn => ?_, fun _ => h.links⟩
  simp only [_unregister, wp_bind, wp_get, hdp', hconn, if_true, wp_modify, wp_delItem, send_event_to_observers]
  refine ⟨fun _ => ?_, fun _ => trivial⟩
  have hbase : OverWires wire (Listed s.port_state) { s with dps := s.dps.erase dp.id, port_state := s.port_state.erase dp.id, events :=
      s.events ++ [.SwitchLeave dp.id ((switchPorts env dp.id state).map RyuPort.key)] } := by
    show LinkInv wire _ _ (linksTold (s.events ++ [_]))
    rw [linksTold_snoc]
    exact h.links
  rw [if_pos hon]
  refine wp_mono (wp_removePorts_links env hsym hbase fun p hp => notReserved_of_mem hp) (fun _ s₁ hs => ?_) fun _ _ _ => trivial
  rw [hs.1]
  refine hs.2.mono fun k hk => listed_erase.mpr ⟨fun hd => ?_, hk.2⟩
  refine hk.1 ((mem_keys_switchPorts fun n p => h.tables.enrolled.numbered dp.id state n p hstate).mpr ⟨hd, ?_⟩)
  exact (listed_of_get (hd ▸ hstate)).mp hk.2

theorem LinkInv.listed (h : OverWires wire (Listed s.port_state) s) (hs : OffLinks s s') : OverWires wire (Listed s'.port_state) s' :=
  (h.off hs).mono hs.listed

theorem wp_withPort_any {d n : Nat} {body : RyuPort → Stmt Unit} {Q : Unit → Switches → Prop} (hnone : Q () s)
    (hsome : ∀ p, wp (body p) s Q fun _ _ => True) : wp (withPort env d n body) s Q fun _ _ => True := by
  unfold withPort
  rw [wp_ite]
  refine ⟨fun _ => ?_, fun _ => hnone⟩
  rw [wp_bind]
  refine wp_mono (wp_get_port_dpid d n) (fun p s₁ hs => ?_) fun _ _ _ => trivial
  obtain ⟨rfl, -⟩ := hs
  cases p with
  | none => exact hnone
  | some p =>
    show wp (if p.is_reserved = true then pure () else body p) s₁ _ _
    rw [wp_ite]
    exact ⟨fun _ => hnone, fun _ => hsome p⟩

theorem links_port_delete (hon : env.link_discovery = true) (hsym : ∀ a b, wire a = some b → wire b = some a) (h : Known env wire s)
    (d : Nat) (p : OFPPort) :
    wp (port_status_handler env d p .DELETE) s (fun _ s' => OverWires wire (Listed s'.port_state) s') fun _ _ => True := by
  -- the port's links are gone before it is
  have hremove : ∀ s₁ : Switches, s₁.port_state = s.port_state →
      OverWires wire (fun k => k ≠ ⟨d, p.port_no⟩ ∧ Listed s.port_state k) s₁ →
      wp (removePort d p.port_no) s₁ (fun _ s' => OverWires wire (Listed s'.port_state) s') fun _ _ => True := by
    intro s₁ hstate h₁
    unfold removePort
    simp only [wp_bind, wp_get, wp_item, wp_delItem, wp_modify]
    refine ⟨fun state hget => ⟨fun _ => ?_, fun _ => trivial⟩, fun _ => trivial⟩
    refine h₁.mono fun k hk => listed_insert.mpr ?_
    rw [← hstate] at hk
    obtain ⟨kd, kn⟩ := k
    by_cases hd : kd = d
    · subst hd
      have hk' := (listed_of_get hget).mp hk.2
      exact Or.inl ⟨rfl, AList.mem_erase.mpr ⟨fun hn => hk.1 (by rw [← hn]), hk'.1⟩, hk'.2⟩
    · exact Or.inr ⟨hd, hk.2⟩
  unfold port_status_handler
  simp only [wp_bind, send_event_to_observers, wp_modify, hon, if_true]
  have h₁ : OverWires wire (Listed s.port_state) { s with events := s.events ++ [.PortDelete ⟨d, p.port_no⟩] } :=
    h.links.off ⟨rfl, linksTold_snoc .., fun _ hk => hk⟩
  refine wp_withPort hon (h.tables.enrolled.events _) (fun hno => ?_) fun q state hstate hq hkey hyes => ?_
  · exact hremove _ rfl (h₁.mono fun k hk => ⟨fun heq => hno (heq ▸ hk), hk⟩)
  · rw [wp_bind]
    have hdel : wp (del_port q.key) { s with events := s.events ++ [.PortDelete ⟨d, p.port_no⟩] }
        (fun _ s' => OffLinks _ s' ∧ SameState _ s') fun _ s' => OffLinks _ s' ∧ SameState _ s' :=
      wp_and (ports_del_port off_ports q.key _) (ports_del_port sameState_ports q.key _)
    refine wp_mono hdel (fun _ s₂ hs => ?_) fun _ _ _ => trivial
    have hsteady : wp (_link_down q.key) s₂ (fun _ s' => Steady env s₂ s') fun _ s' => Steady env s₂ s' := moves_link_down q.key s₂
    have hdown := wp_and (wp_link_down_links hsym (h₁.off hs.1) q.key) hsteady
    refine wp_mono hdown (fun _ s₃ hs₃ => hremove s₃ (hs₃.2.port_state.trans hs.2) ?_) fun _ _ _ => trivial
    rw [hkey] at hs₃
    exact hs₃.1

theorem links_port_modify (hsym : ∀ a b, wire a = some b → wire b = some a) (h : Known env wire s) (d : Nat) (p : OFPPort) :
    wp (port_status_handler env d p .MODIFY) s (fun _ s' => OverWires wire (Listed s'.port_state) s') fun _ _ => True := by
  unfold port_status_handler
  rw [wp_bind]
  refine wp_mono (off_setPort d p s) (fun _ s₁ hs => ?_) fun _ _ _ => trivial
  rw [wp_bind]
  have hsend : Moves OffLinks (send_event_to_observers (.PortModify ⟨d, p.port_no⟩)) := off_send_event fun _ => rfl
  refine wp_mono (hsend s₁) (fun _ s₂ hs₂ => ?_) fun _ _ _ => trivial
  have h₂ := (h.links.listed hs).listed hs₂
  refine wp_withPort_any h₂ fun q => ?_
  rw [wp_bind]
  refine wp_mono (ports_set_down off_ports q.key q.is_down s₂) (fun down s₃ hs₃ => ?_) fun _ _ _ => trivial
  have h₃ := h₂.listed hs₃
  rw [wp_ite]
  refine ⟨fun _ => ?_, fun _ => h₃⟩
  have hsteady : wp (_link_down q.key) s₃ (fun _ s' => Steady env s₃ s') fun _ s' => Steady env s₃ s' := moves_link_down q.key s₃
  refine wp_mono (wp_and (wp_link_down_links hsym h₃ q.key) hsteady) (fun _ s₄ hs₄ => ?_) fun _ _ _ => trivial
  rw [hs₄.2.port_state]
  exact hs₄.1.mono fun k hk => hk.2

theorem links_port_add (h : Known env wire s) (d : Nat) (p : OFPPort) :
    wp (port_status_handler env d p .ADD) s (fun _ s' => OverWires wire (Listed s'.port_state) s') fun _ _ => True := by
  have hoff : Moves OffLinks (port_status_handler env d p .ADD) := .bind (off_setPort d p) fun _ => .bind (off_send_event fun _ => rfl)
    fun _ => moves_withPort d _ fun q => ports_port_added off_ports q
  exact wp_mono (hoff s) (fun _ _ hs => h.links.listed hs) fun _ _ _ => trivial

theorem links_handle (hon : env.link_discovery = true) (hsym : ∀ a b, wire a = some b → wire b = some a) (h : Known env wire s) {i : Input}
    (hi : Fits env wire s i) : wp (handle env i) s (fun _ s' => OverWires wire (Listed s'.port_state) s') fun _ _ => True := by
  have hoff : ∀ {x : Stmt Unit}, Moves OffLinks x → wp x s (fun _ s' => OverWires wire (Listed s'.port_state) s') fun _ _ => True :=
    fun hx => wp_mono (hx s) (fun _ _ hs => h.links.listed hs) fun _ _ _ => trivial
  have hsteady : ∀ {x : Stmt Unit} {E : Exn → Switches → Prop}, Moves (Steady env) x →
      wp x s (fun _ s' => OverWires wire (Listed s.port_state) s') E →
      wp x s (fun _ s' => OverWires wire (Listed s'.port_state) s') fun _ _ => True := by
    intro x E hx hlinks
    refine wp_mono (wp_and (hx s) hlinks) (fun _ s' hs => ?_) fun _ _ _ => trivial
    rw [hs.1.port_state]
    exact hs.2
  cases i with
  | Main dp => exact hoff (off_main_dispatcher dp)
  | Dead dp =>
    cases dp with
    | none => exact h.links
    | some dp => exact links_dead hon hsym h dp
  | PortStatus d p reason =>
    cases reason with
    | ADD => exact links_port_add h d p
    | DELETE => exact links_port_delete hon hsym h d p
    | MODIFY => exact links_port_modify hsym h d p
  | LldpPacketIn msg => exact hsteady (moves_lldp_packet_in_handler msg) (wp_lldp_packet_in h hi)
  | HostPacketIn msg => exact hoff (off_host_discovery msg)
  | SendLldp port => exact hoff (off_send_lldp_packet port)
  | LinkRound => exact hsteady moves_link_loop (wp_link_loop h)
  | Elapse time => exact h.links

/-! ## No missing key -/

theorem host_discovery_ends (h : Enrolled s) (msg : RyuPacketIn) :
    wp (host_discovery_packet_in_handler env msg) s (fun _ _ => True) fun _ _ => Unreadable env (.HostPacketIn msg) := by
  unfold host_discovery_packet_in_handler
  rw [wp_bind, wp_orRaise]
  refine ⟨fun fields hfields => ?_, fun e he => Or.inl fun dst src ethertype hok => by rw [he] at hok; cases hok⟩
  split
  · rw [wp_ite]
    refine ⟨fun _ => trivial, fun _ => ?_⟩
    rw [wp_bind]
    refine wp_get_listed h trivial fun port _ _ => ?_
    simp only [wp_bind, wp_get]
    rw [wp_ite]
    refine ⟨fun _ => ?_, fun _ => trivial⟩
    rw [wp_bind]
    have hlearn : ∀ mac, wp (learnHost mac port.key) s (fun _ _ => True) fun _ _ => False := by
      intro mac
      unfold learnHost
      simp only [wp_bind, wp_get]
      cases s.hosts.get mac with
      | none => trivial
      | some host =>
        show wp (if host.port ≠ port.key then _ else pure ()) s _ _
        rw [wp_ite]
        exact ⟨fun _ => trivial, fun _ => trivial⟩
    refine wp_mono (hlearn _) (fun _ s₁ _ => ?_) fun _ _ h => h.elim
    have hip : ∀ (mac : Bytes) (x : Except Exn Bytes) (f : Bytes → RyuHost → RyuHost), (∀ e, x = .error e →
        Unreadable env (.HostPacketIn msg)) → wp (orRaise x >>= fun ip => update_ip mac (f ip)) s₁ (fun _ _ => True)
        fun _ _ => Unreadable env (.HostPacketIn msg) := by
      intro mac x f hx
      rw [wp_bind, wp_orRaise]
      exact ⟨fun _ _ => trivial, hx⟩
    unfold learnIp
    rw [wp_ite, wp_ite, wp_ite]
    exact ⟨fun _ => hip _ _ _ fun e he => Or.inr ⟨e, Or.inl he⟩, fun _ => ⟨fun _ => hip _ _ _ fun e he => Or.inr ⟨e, Or.inr (Or.inl he)⟩,
      fun _ => ⟨fun _ => hip _ _ _ fun e he => Or.inr ⟨e, Or.inr (Or.inr he)⟩, fun _ => trivial⟩⟩⟩
  · rename_i hshape
    refine Or.inl fun dst src ethertype hok => ?_
    rw [hfields] at hok
    cases hok
    exact hshape _ _ _ rfl

theorem send_lldp_packet_completes (h : PortTable env P s.ports s.time) (port : LinkEnd) :
    wp (send_lldp_packet port) s (fun _ _ => True) fun _ _ => False := by
  have hsent : wp (lldp_sent port) s (fun _ _ => True) fun e _ => e = .KeyError := by
    unfold lldp_sent
    simp only [setData, setKeys, wp_bind, wp_get, wp_item, wp_modify, wp_orRaise, wp_pure]
    refine ⟨fun data hdata => ⟨fun _ _ => trivial, fun e he => ?_⟩, fun _ => trivial⟩
    have hk : P port := h.dict_iff.mp (Dict.mem_iff_get.mpr ⟨data, hdata⟩)
    obtain ⟨keys, ho⟩ := h
    obtain ⟨linked, hmove, -⟩ := ho.lists.move_last ((ho.mem port).mpr hk)
    rw [hmove] at he
    cases he
  unfold send_lldp_packet
  rw [wp_bind, wp_tryKey]
  refine wp_mono hsent (fun data s₁ _ => ?_) fun e s₁ he => ⟨fun _ => trivial, fun hne => hne he⟩
  show wp (if data.is_down = true then pure () else _) s₁ _ _
  rw [wp_ite]
  refine ⟨fun _ => trivial, fun _ => ?_⟩
  simp only [wp_bind, wp_get]
  cases s₁.dps.get port.dpid with
  | none => trivial
  | some dp => trivial

theorem handle_ends (hon : env.link_discovery = true) (hconv : Converts env) (h : Known env wire s) {i : Input} (hi : Fits env wire s i) :
    wp (handle env i) s (fun _ _ => True) fun _ s' => (OffLinks s s' ∨ s' = s) ∧ Unreadable env i := by
  have hnever : ∀ {x : Stmt Unit} {Q : Unit → Switches → Prop}, wp x s Q (fun _ _ => False) → wp x s (fun _ _ => True)
      fun _ s' => (OffLinks s s' ∨ s' = s) ∧ Unreadable env i := fun hx => wp_mono hx (fun _ _ _ => trivial) fun _ _ h => h.elim
  cases i with
  | Main dp => exact hnever (wp_main_dispatcher hon hconv h.tables hi.1)
  | Dead dp =>
    cases dp with
    | none => exact trivial
    | some dp => exact hnever (wp_dead_dispatcher hon h.tables dp)
  | PortStatus d p reason =>
    cases reason with
    | ADD => exact hnever (wp_port_add hon hconv h.tables hi.1)
    | DELETE => exact hnever (wp_port_delete hon h.tables hi.1)
    | MODIFY => exact hnever (wp_port_modify hon h.tables hi.1)
  | LldpPacketIn msg => exact wp_mono (wp_lldp_packet_in h hi) (fun _ _ _ => trivial) fun _ _ hs => ⟨Or.inr hs.1, hs.2⟩
  | HostPacketIn msg =>
    exact wp_mono (wp_and (off_host_discovery msg s) (host_discovery_ends h.tables.enrolled msg)) (fun _ _ _ => trivial)
      fun _ _ hs => ⟨Or.inl hs.1, hs.2⟩
  | SendLldp port => exact hnever (send_lldp_packet_completes h.tables.table port)
  | LinkRound => exact hnever (wp_link_loop h)
  | Elapse time => exact trivial

theorem known_step (hon : env.link_discovery = true) (hconv : Converts env) (hsym : ∀ a b, wire a = some b → wire b = some a)
    (h : Known env wire s) {i : Input} (hi : Fits env wire s i) : Known env wire (step env s i) := by
  have hlinks : wp (handle env i) s (fun _ s' => OverWires wire (Listed s'.port_state) s')
      fun _ s' => OverWires wire (Listed s'.port_state) s' := by
    refine wp_mono (wp_and (links_handle hon hsym h hi) (handle_ends hon hconv h hi)) (fun _ _ hs => hs.1) fun _ s' hs => ?_
    rcases hs.2.1 with hoff | rfl
    · exact h.links.listed hoff
    · exact h.links
  exact ⟨step_of_handle (tables_handle hon hconv h.tables hi.1), step_of_handle (hostsOff_handle h.hosts i),
    step_of_handle (I := fun s' => OverWires wire (Listed s'.port_state) s') hlinks⟩

theorem known_run (hon : env.link_discovery = true) (hconv : Converts env) (hsym : ∀ a b, wire a = some b → wire b = some a)
    {is : List Input} (h : Runs.Allowed (step env) (Fits env wire) {} is) : Known env wire (is.foldl (step env) {}) :=
  Runs.Allowed.invariant (Known env wire) (fun _ _ hs hi => known_step hon hconv hsym hs hi) ⟨tables_init, hostsOff_init, linkInv_init⟩ h

def sampleWire (k : LinkEnd) : Option LinkEnd :=
  if k = ⟨1, 1⟩ then some ⟨2, 1⟩ else if k = ⟨2, 1⟩ then some ⟨1, 1⟩ else none

theorem sampleWire_symm : ∀ a b, sampleWire a = some b → sampleWire b = some a := by
  intro a b h
  unfold sampleWire at h
  split at h
  · rename_i ha
    cases h
    rw [ha]
    rfl
  · split at h
    · rename_i ha
      cases h
      rw [ha]
      rfl
    · cases h

theorem sampleRun_fits : Runs.Allowed (step sampleEnv) (Fits sampleEnv sampleWire) {} sampleRun :=
  ⟨⟨sampleSwitch_reports (by decide) sampleOne_addressed, trivial⟩, ⟨sampleSwitch_reports (by decide) sampleTwo_addressed, trivial⟩,
    ⟨trivial, trivial⟩, ⟨trivial, fun _ _ _ => ⟨⟨1, 1⟩, by decide +kernel, rfl⟩⟩, ⟨trivial, trivial⟩,
    ⟨trivial, fun _ _ _ => ⟨⟨2, 1⟩, by decide +kernel, rfl⟩⟩, trivial⟩

end Switches

end VnfDockerNet
