import VnfDockerNet.Registry

/-!
# The owners of the datapaths

`lc_connected`, `lc_home`, the `dpid_to_role` tables and `datapath_list` are four
records of one relation. They agree until the home of a datapath leaves it while
another controller is connected, or its last connection is closed by a controller
that has none.
-/

namespace VnfDockerNet

open Python Networkx Runs

namespace AppManager

/-- The connections are the controllers with a role, and the home is one of them. -/
structure Owned (dp : Datapath) (hasRole : Nat → Prop) : Prop where
  nonempty : dp.lc_connected ≠ []
  nodup : dp.lc_connected.Nodup
  home : ∃ l ∈ dp.lc_connected, dp.lc_home = some l
  roles : ∀ l, l ∈ dp.lc_connected ↔ hasRole l

structure OwnersAgree {Γ : Type} (s : AppManager Γ) : Prop where
  owned : ∀ d dp, s.datapath_list.get d = some dp → Owned dp fun l => d ∈ (s.lcs l).dpid_to_role
  listed : ∀ l d, d ∈ (s.lcs l).dpid_to_role → d ∈ s.datapath_list

def owners (dp : Datapath) : Option Nat × List Nat := (dp.lc_home, dp.lc_connected)

theorem Owned.congr {dp dp' : Datapath} {p p' : Nat → Prop} (h : Owned dp p) (ho : owners dp' = owners dp)
    (hp : ∀ l, p' l ↔ p l) : Owned dp' p' := by
  have hhome : dp'.lc_home = dp.lc_home := congrArg Prod.fst ho
  have hconn : dp'.lc_connected = dp.lc_connected := congrArg Prod.snd ho
  refine ⟨?_, ?_, ?_, fun l => ?_⟩
  · rw [hconn]
    exact h.nonempty
  · rw [hconn]
    exact h.nodup
  · rw [hconn, hhome]
    exact h.home
  · rw [hconn, hp]
    exact h.roles l

/-! ## Messages that move no owner -/

structure SameOwners {Γ : Type} (s s' : AppManager Γ) : Prop where
  listed : ∀ d, (s'.datapath_list.get d).map owners = (s.datapath_list.get d).map owners
  role : ∀ l, (s'.lcs l).dpid_to_role = (s.lcs l).dpid_to_role

section
variable {Γ : Type} {s s' s'' : AppManager Γ}

theorem SameOwners.refl (s : AppManager Γ) : SameOwners s s := ⟨fun _ => rfl, fun _ => rfl⟩

theorem SameOwners.trans (h : SameOwners s s') (h' : SameOwners s' s'') : SameOwners s s'' :=
  ⟨fun d => (h'.listed d).trans (h.listed d), fun l => (h'.role l).trans (h.role l)⟩

theorem OwnersAgree.same (h : OwnersAgree s) (hs : SameOwners s s') : OwnersAgree s' := by
  refine ⟨fun d dp' hdp' => ?_, fun l d hd => ?_⟩
  · have hlist := hs.listed d
    rw [hdp', Option.map_some, eq_comm, Option.map_eq_some_iff] at hlist
    obtain ⟨dp, hdp, ho⟩ := hlist
    refine (h.owned d dp hdp).congr ho.symm fun l => ?_
    rw [hs.role]
  · rw [hs.role] at hd
    obtain ⟨dp, hdp⟩ := Dict.mem_iff_get.mp (h.listed l d hd)
    have hlist := hs.listed d
    rw [hdp, Option.map_some, Option.map_eq_some_iff] at hlist
    obtain ⟨dp', hdp', _⟩ := hlist
    exact Dict.mem_iff_get.mpr ⟨dp', hdp'⟩

theorem map_owners_same {dps dps' : Dict Nat Datapath} (h : SameButMacs dps dps') (d : Nat) :
    (dps'.get d).map owners = (dps.get d).map owners := by
  obtain ⟨mac, h⟩ := h
  rw [h d, Option.map_map]
  rfl

theorem map_owners_insert {dps : Dict Nat Datapath} {dpid : Nat} {dp dp' : Datapath} (hdp : dps.get dpid = some dp)
    (h : owners dp' = owners dp) (d : Nat) :
    (Dict.get (dps.insert dpid dp') d).map owners = (dps.get d).map owners := by
  rw [Dict.get_insert]
  split
  · rename_i hd
    rw [hd, hdp, Option.map_some, Option.map_some, h]
  · rfl

end

section
variable {env : Env} {s : AppManager env.nx.Graph}

theorem sameOwners_sends (s : AppManager env.nx.Graph) (lc x : Nat) (msgs : List Sent) :
    SameOwners s (sends s lc x msgs) := ⟨fun _ => rfl, sends_role lc x msgs⟩

theorem sameOwners_close (s : AppManager env.nx.Graph) (lc : Nat) : SameOwners s (s.close lc) :=
  ⟨fun _ => rfl, close_role lc⟩

theorem sameOwners_dispatch (lc : Nat) (ev : Event MsgUp) (s : AppManager env.nx.Graph)
    (hc : ∀ dpid w, ev.msg ≠ .DPConnected dpid w) (hl : ∀ dpid, ev.msg ≠ .DatapathLeave dpid) :
    Always (dispatch_event env lc ev) s (SameOwners s) := by
  refine Always.mono (outcome_dispatch lc ev s) ?_
  intro s' hout
  cases hout with
  | connect dpid w hosts dps dp x msgs hmsg => exact absurd hmsg (hc dpid w)
  | leave dpid hosts dps dps' role load win g hmsg => exact absurd hmsg (hl dpid)
  | hello lcid x msgs =>
    refine SameOwners.trans ?_ (sameOwners_sends _ lc x msgs)
    exact ⟨fun _ => rfl, helloed_role lc lcid⟩
  | hosts hosts dps hmsg hdps => exact ⟨map_owners_same hdps, fun _ => rfl⟩
  | gid dpid dp x msgs hmsg hdp =>
    refine SameOwners.trans ?_ (sameOwners_sends _ lc x msgs)
    exact ⟨map_owners_insert hdp (by rfl), fun _ => rfl⟩
  | load dpid pkt_in_cnt dp hdp =>
    exact ⟨map_owners_insert hdp (by rfl), update_proj LocalController.dpid_to_role (by rfl)⟩
  | packetIn | echo | graph => exact ⟨fun _ => rfl, fun _ => rfl⟩
  | same => exact .refl s

/-! ## DATAPATH_CONNECTED -/

theorem OwnersAgree.homed (h : OwnersAgree s) {hosts : Dict Bytes Lcid} {dps : Dict Nat Datapath} {lc dpid : Nat}
    {dp : Datapath} (hdp : dps.get dpid = some dp)
    (hother : ∀ d, d ≠ dpid → (dps.get d).map owners = (s.datapath_list.get d).map owners)
    (hnodup : dp.lc_connected.Nodup) (hroles : ∀ l, l ∈ dp.lc_connected ↔ dpid ∈ (s.lcs l).dpid_to_role) :
    OwnersAgree (homed { s with host_to_lcid := hosts, datapath_list := dps } lc dpid dp) := by
  have hget : ∀ d, (AppManager.homed { s with host_to_lcid := hosts, datapath_list := dps } lc dpid dp).datapath_list.get d =
      if d = dpid then some { (dp.add_lc lc).set_home_lc lc with _generation_id := dp._generation_id + 1 }
      else dps.get d := fun d => Dict.get_insert ..
  have hrole : ∀ l d, d ∈ ((AppManager.homed { s with host_to_lcid := hosts, datapath_list := dps } lc dpid dp).lcs
      l).dpid_to_role ↔ (l = lc ∧ d = dpid) ∨ d ∈ (s.lcs l).dpid_to_role := by
    intro l d
    rw [Dict.mem_iff_get, homed_role]
    split
    · rename_i hld
      exact iff_of_true ⟨_, rfl⟩ (Or.inl hld)
    · rename_i hld
      rw [← Dict.mem_iff_get]
      exact (or_iff_right hld).symm
  have hadd : (dp.add_lc lc).lc_connected.Nodup ∧
      ∀ l, l ∈ (dp.add_lc lc).lc_connected ↔ l = lc ∨ l ∈ dp.lc_connected := by
    unfold Datapath.add_lc
    split
    · rename_i hin
      refine ⟨hnodup, fun l => ⟨Or.inr, ?_⟩⟩
      rintro (rfl | hl)
      · exact hin
      · exact hl
    · rename_i hout
      refine ⟨hnodup.append (List.nodup_singleton lc) (by simpa using hout), fun l => ?_⟩
      rw [List.mem_append, List.mem_singleton, or_comm]
  refine ⟨fun d dp' hdp' => ?_, fun l d hd => ?_⟩
  · rw [hget] at hdp'
    split at hdp'
    · rename_i hd
      subst hd
      cases hdp'
      have hself : lc ∈ (dp.add_lc lc).lc_connected := (hadd.2 lc).mpr (Or.inl rfl)
      refine ⟨List.ne_nil_of_mem hself, hadd.1, ⟨lc, hself, rfl⟩, fun l => ?_⟩
      rw [hrole, and_iff_left rfl, ← hroles]
      exact hadd.2 l
    · rename_i hd
      have hlist := hother d hd
      rw [hdp', Option.map_some, eq_comm, Option.map_eq_some_iff] at hlist
      obtain ⟨dp₀, hdp₀, ho⟩ := hlist
      refine (h.owned d dp₀ hdp₀).congr ho.symm fun l => ?_
      rw [hrole]
      exact or_iff_right fun hld => hd hld.2
  · rw [Dict.mem_iff_get, hget]
    by_cases hdd : d = dpid
    · rw [if_pos hdd]
      exact ⟨_, rfl⟩
    · rw [if_neg hdd]
      obtain ⟨dp₀, hdp₀⟩ := Dict.mem_iff_get.mp (h.listed l d (((hrole l d).mp hd).resolve_left fun hld => hdd hld.2))
      have hlist := hother d hdd
      rw [hdp₀, Option.map_some, Option.map_eq_some_iff] at hlist
      obtain ⟨dp', hdp', _⟩ := hlist
      exact ⟨dp', hdp'⟩

theorem ownersAgree_connected (lc dpid : Nat) (h : OwnersAgree s) :
    Always (_tflcp_datapath_connected_handler env lc dpid) s OwnersAgree := by
  refine Always.mono (always_datapath_connected lc dpid s) ?_
  intro _ hpost
  rcases hpost with ⟨hosts, dps, rfl, hsame⟩ | ⟨hosts, dps, dp, x, msgs, hdps, hdp, rfl, _⟩
  · exact h.same ⟨map_owners_same hsame, fun _ => rfl⟩
  · refine OwnersAgree.same ?_ (sameOwners_sends _ lc x msgs)
    rcases hdps with hsame | ⟨hnone, rfl⟩
    · obtain ⟨dp₀, hdp₀, hhome, _, hconn⟩ := hsame.listed hdp
      have hown : Owned dp fun l => dpid ∈ (s.lcs l).dpid_to_role :=
        (h.owned dpid dp₀ hdp₀).congr (Prod.ext hhome.symm hconn.symm) fun _ => .rfl
      exact h.homed hdp (fun d _ => map_owners_same hsame d) hown.nodup hown.roles
    · rw [Dict.get_insert, if_pos rfl] at hdp
      cases hdp
      refine h.homed (by rw [Dict.get_insert, if_pos rfl]) (fun d hd => ?_) List.nodup_nil fun l => ?_
      · rw [Dict.get_insert, if_neg hd]
      · refine iff_of_false List.not_mem_nil fun hrole => ?_
        exact Dict.get_eq_none.mp hnone (h.listed l dpid hrole)

/-! ## DATAPATH_LEAVE -/

/-- The home leaves last, and the last connection is left by its controller. -/
def OwnerSafe {Γ : Type} (s : AppManager Γ) (r : Received) : Prop :=
  match r.ev.msg with
  | .DatapathLeave dpid => ∀ dp, s.datapath_list.get dpid = some dp →
      if r.lc ∈ dp.lc_connected then dp.lc_home ≠ some r.lc ∨ dp.lc_connected = [r.lc]
      else dp.lc_connected.length ≠ 1
  | _ => True

instance {Γ : Type} (s : AppManager Γ) : ∀ r, Decidable (OwnerSafe s r)
  | ⟨lc, _, .DatapathLeave dpid⟩ =>
    match h : s.datapath_list.get dpid with
    | some dp =>
      decidable_of_iff (if lc ∈ dp.lc_connected then dp.lc_home ≠ some lc ∨ dp.lc_connected = [lc]
        else dp.lc_connected.length ≠ 1)
        ⟨fun hsafe _ hdp => Option.some.inj (h.symm.trans hdp) ▸ hsafe, fun hsafe => hsafe dp h⟩
    | none => isTrue fun dp hdp => absurd (h.symm.trans hdp) (Option.some_ne_none dp).symm
  | ⟨_, _, .DPConnected ..⟩ | ⟨_, _, .HostConnected ..⟩ | ⟨_, _, .HostLeave ..⟩ | ⟨_, _, .HelloUp⟩
  | ⟨_, _, .GraphInfo _⟩ | ⟨_, _, .GidRequest _⟩ | ⟨_, _, .PacketIn ..⟩ | ⟨_, _, .LoadReport ..⟩
  | ⟨_, _, .RoleNotify ..⟩ | ⟨_, _, .EchoReply _⟩ | ⟨_, _, .Error ..⟩ | ⟨_, _, .BarrierReply⟩ => isTrue trivial

theorem ownersAgree_dropped {lc dpid : Nat} {dp : Datapath} (h : OwnersAgree s)
    (hdp : s.datapath_list.get dpid = some dp) (hin : lc ∈ dp.lc_connected)
    (hsafe : dp.lc_home ≠ some lc ∨ dp.lc_connected = [lc]) : OwnersAgree (dropped s lc dpid dp) := by
  have hown := h.owned dpid dp hdp
  have hrole : ∀ l d, d ∈ ((dropped s lc dpid dp).lcs l).dpid_to_role ↔
      d ∈ (s.lcs l).dpid_to_role ∧ ¬ (l = lc ∧ d = dpid) := by
    intro l d
    unfold dropped
    by_cases hl : l = lc
    · subst hl
      simp only [Function.update_self, AList.mem_erase, true_and]
      exact and_comm
    · simp [hl]
  -- the other datapaths keep their owners
  have hother : ∀ d dp', d ≠ dpid → s.datapath_list.get d = some dp' →
      Owned dp' fun l => d ∈ ((dropped s lc dpid dp).lcs l).dpid_to_role := by
    intro d dp' hd hdp'
    refine (h.owned d dp' hdp').congr rfl fun l => ?_
    rw [hrole]
    exact and_iff_left fun hld => hd hld.2
  by_cases hlen : dp.lc_connected.length = 1
  · have hlist : (dropped s lc dpid dp).datapath_list = s.datapath_list.erase dpid := if_pos hlen
    refine ⟨fun d dp' hdp' => ?_, fun l d hd => ?_⟩
    · rw [hlist, Dict.get_erase] at hdp'
      split at hdp'
      · cases hdp'
      · rename_i hd
        exact hother d dp' hd hdp'
    · obtain ⟨hold, hne⟩ := (hrole l d).mp hd
      rw [hlist, AList.mem_erase]
      refine ⟨?_, h.listed l d hold⟩
      rintro rfl
      obtain ⟨a, ha⟩ := List.length_eq_one_iff.mp hlen
      have hl := (hown.roles l).mpr hold
      rw [ha] at hl hin
      exact hne ⟨(List.mem_singleton.mp hl).trans (List.mem_singleton.mp hin).symm, rfl⟩
  · have hlist : (dropped s lc dpid dp).datapath_list =
        s.datapath_list.insert dpid { dp with lc_connected := dp.lc_connected.erase lc } := if_neg hlen
    have hhome : dp.lc_home ≠ some lc := hsafe.resolve_right fun he => hlen (by rw [he]; rfl)
    refine ⟨fun d dp' hdp' => ?_, fun l d hd => ?_⟩
    · rw [hlist, Dict.get_insert] at hdp'
      split at hdp'
      · rename_i hd
        subst hd
        cases hdp'
        obtain ⟨l, hl, hl'⟩ := hown.home
        have hkeep : l ∈ dp.lc_connected.erase lc := by
          refine hown.nodup.mem_erase_iff.mpr ⟨?_, hl⟩
          rintro rfl
          exact hhome hl'
        refine ⟨List.ne_nil_of_mem hkeep, hown.nodup.erase lc, ⟨l, hkeep, hl'⟩, fun l' => ?_⟩
        rw [hrole, and_iff_left rfl, ← hown.roles, and_comm]
        exact hown.nodup.mem_erase_iff
      · rename_i hd
        exact hother d dp' hd hdp'
    · rw [hlist, AList.mem_insert]
      exact Or.inr (h.listed l d ((hrole l d).mp hd).1)

theorem wp_dropDatapath_stranger {lc dpid : Nat} {dp : Datapath} {Q : Unit → AppManager env.nx.Graph → Prop}
    {E : Exn → AppManager env.nx.Graph → Prop} (hdp : s.datapath_list.get dpid = some dp)
    (hlen : dp.lc_connected.length ≠ 1) (hrole : dpid ∉ (s.lcs lc).dpid_to_role) (h : E .KeyError s) :
    wp (dropDatapath env lc dpid) s Q E := by
  unfold dropDatapath
  simp only [wp_bind, wp_get, wp_item_some hdp, wp_ite]
  refine ⟨fun hlen' => absurd hlen' hlen, fun _ => ?_⟩
  rw [wp_item]
  exact ⟨fun v hv => absurd (Dict.mem_iff_get.mpr ⟨v, hv⟩) hrole, fun _ => h⟩

theorem ownersAgree_leave {lc dpid : Nat} (hconn : Connections s) (h : OwnersAgree s)
    (hsafe : ∀ dp, s.datapath_list.get dpid = some dp →
      if lc ∈ dp.lc_connected then dp.lc_home ≠ some lc ∨ dp.lc_connected = [lc] else dp.lc_connected.length ≠ 1) :
    Always (_tflcp_datapath_leave_handler env lc dpid) s OwnersAgree := by
  refine wp_datapath_leave (fun _ => h) fun dp₀ hdp₀ => ?_
  refine wp_mono (always_purgeMacs dpid _ 0 s) ?_ ?_
  · intro _ _ hpost
    obtain ⟨hosts, dps, rfl, hsame⟩ := hpost
    have hagree : OwnersAgree { s with host_to_lcid := hosts, datapath_list := dps } :=
      h.same ⟨map_owners_same hsame, fun _ => rfl⟩
    obtain ⟨mac, hdp⟩ := hsame.get_some hdp₀
    have hsafe := hsafe dp₀ hdp₀
    by_cases hin : lc ∈ dp₀.lc_connected
    · rw [if_pos hin] at hsafe
      obtain ⟨hrole, hload⟩ := (hconn dpid dp₀ hdp₀).2 lc hin
      refine wp_dropDatapath hdp hin hrole hload ?_
      refine Always.mono (always_removeWindowEdges dpid _ _) ?_
      intro _ hpost
      obtain ⟨g, rfl, _⟩ := hpost
      have hdropped := ownersAgree_dropped hagree hdp hin hsafe
      exact ⟨hdropped.owned, hdropped.listed⟩
    · rw [if_neg hin] at hsafe
      refine wp_dropDatapath_stranger hdp hsafe (fun hrole => ?_) hagree
      exact hin (((h.owned dpid dp₀ hdp₀).roles lc).mpr hrole)
  · intro _ _ hpost
    obtain ⟨hosts, dps, rfl, hsame⟩ := hpost
    exact h.same ⟨map_owners_same hsame, fun _ => rfl⟩

theorem ownersAgree_step {r : Received} (hconn : Connections s) (h : OwnersAgree s) (hsafe : OwnerSafe s r) :
    OwnersAgree (receive env s r) := by
  refine receive_of_always _ (fun s' hs' => hs'.same (sameOwners_close s' r.lc)) ?_
  unfold OwnerSafe at hsafe
  cases hmsg : r.ev.msg with
  | DPConnected dpid w =>
    unfold dispatch_event
    rw [hmsg]
    exact ownersAgree_connected r.lc dpid h
  | DatapathLeave dpid =>
    rw [hmsg] at hsafe
    unfold dispatch_event
    rw [hmsg]
    exact ownersAgree_leave hconn h hsafe
  | HelloUp | HostConnected | HostLeave | GidRequest | PacketIn | LoadReport | EchoReply | GraphInfo | RoleNotify | Error
  | BarrierReply =>
    refine Always.mono (sameOwners_dispatch r.lc r.ev s (fun _ _ hm => ?_) fun _ hm => ?_) fun _ hs => h.same hs
    · rw [hmsg] at hm
      cases hm
    · rw [hmsg] at hm
      cases hm

/-- What every run keeps: what the connected controllers know, and the owners. -/
structure OwnerInv (s : AppManager env.nx.Graph) : Prop where
  connections : Connections s
  agree : OwnersAgree s

theorem ownerInv_init (address : Nat → String × Nat) (xid : Nat → Nat) : OwnerInv (init env address xid) := by
  have hnone : ∀ d, (init env address xid).datapath_list.get d = none := fun d => Dict.get_empty d
  refine ⟨fun d dp hdp => ?_, fun d dp hdp => ?_, fun l d hd => ?_⟩
  · rw [hnone] at hdp
    cases hdp
  · rw [hnone] at hdp
    cases hdp
  · exact absurd hd (AList.notMem_empty d)

theorem ownerInv_step {r : Received} (h : OwnerInv s) (hr : Accepts env s r ∧ OwnerSafe s r) :
    OwnerInv (receive env s r) := ⟨connections_step r h.connections, ownersAgree_step h.connections h.agree hr.2⟩

/-- **The records of the owners agree** after every run of safe steps. -/
theorem owners_agree (env : Env) (address : Nat → String × Nat) (xid : Nat → Nat) (rs : List Received)
    (h : Allowed (receive env) (fun s r => Accepts env s r ∧ OwnerSafe s r) (init env address xid) rs) :
    OwnersAgree (rs.foldl (receive env) (init env address xid)) :=
  (Allowed.invariant _ (fun _ _ => ownerInv_step) (ownerInv_init address xid) h).agree

theorem owners_agree_handover :
    OwnersAgree ([received 0 1 .HelloUp, received 1 1 .HelloUp, received 0 2 (.DPConnected 7 false),
        received 1 2 (.DPConnected 7 false), received 0 3 (.DatapathLeave 7)].foldl
      (receive (sampleEnv [])) (sampleInit [])) :=
  owners_agree (sampleEnv []) _ _ _ (by decide)

/-- The switch goes back to the controller that was connected first, and stays listed under a home without it. -/
theorem owners_agree_home_left :
    Allowed (receive (sampleEnv [])) (Accepts (sampleEnv [])) (sampleInit [])
      [received 0 1 .HelloUp, received 1 1 .HelloUp, received 0 2 (.DPConnected 7 false),
        received 1 2 (.DPConnected 7 false), received 1 3 (.DatapathLeave 7)] ∧
    ¬ OwnersAgree ([received 0 1 .HelloUp, received 1 1 .HelloUp, received 0 2 (.DPConnected 7 false),
        received 1 2 (.DPConnected 7 false), received 1 3 (.DatapathLeave 7)].foldl
      (receive (sampleEnv [])) (sampleInit [])) := by
  refine ⟨by decide, fun h => ?_⟩
  obtain ⟨l, hl, hhome⟩ := (h.owned 7 ⟨7, 3, [], some 1, [0], 0⟩ (by rfl)).home
  have hl := List.mem_singleton.mp hl
  subst hl
  cases hhome

end

end AppManager

end VnfDockerNet
