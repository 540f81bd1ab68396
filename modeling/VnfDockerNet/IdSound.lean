import Mathlib.Data.Finset.Card
import Mathlib.Order.Interval.Finset.Nat
import VnfDockerNet.Registry

/-!
# Ids of local controllers

The counter hands out 1 to `MAX_LC_ID` and starts again. Up to that many
addresses get ids of their own; the next new address gets one that is in use.
-/

namespace VnfDockerNet

open Python Networkx Runs

namespace AppManager

section
variable {env : Env} {s : AppManager env.nx.Graph}

/-- The ids after HELLO_UPs from `addrs`. -/
structure Numbering (address : Nat → String × Nat) (addrs : Finset (String × Nat)) (s : AppManager env.nx.Graph) : Prop where
  registered : Registered s
  address : ∀ l, (s.lcs l).address = address l
  counter : s.glcid = addrs.card % MAX_LC_ID + 1
  said : ∀ a, a ∈ s.lcip_to_lcid ↔ a ∈ addrs
  used : ∀ i, (∃ a, s.lcip_to_lcid.get a = some i) ↔ 1 ≤ i ∧ i ≤ min addrs.card MAX_LC_ID
  unique : addrs.card ≤ MAX_LC_ID → ∀ a b i, s.lcip_to_lcid.get a = some i → s.lcip_to_lcid.get b = some i → a = b

theorem numbering_init (address : Nat → String × Nat) (xid : Nat → Nat) : Numbering address ∅ (init env address xid) where
  registered := registered_init address xid
  address _ := rfl
  counter := rfl
  said a := by simp [init]
  used i := by
    refine iff_of_false (fun h => ?_) (by simp; omega)
    obtain ⟨a, ha⟩ := h
    cases ha
  unique _ a _ _ ha := by cases ha

theorem glcid_helloed (lc lcid : Nat) : (helloed s lc lcid).glcid =
    if (s.lcs lc).address ∈ s.lcip_to_lcid then s.glcid else if s.glcid + 1 > MAX_LC_ID then 1 else s.glcid + 1 := rfl

variable {address : Nat → String × Nat} {addrs : Finset (String × Nat)}

theorem said_helloed (h : Numbering address addrs s) {lc lcid : Nat}
    (hid : lcid = (s.lcip_to_lcid.get (s.lcs lc).address).getD s.glcid) (a : String × Nat) :
    a ∈ (helloed s lc lcid).lcip_to_lcid ↔ a ∈ insert (address lc) addrs := by
  rw [Dict.mem_iff_get, numbering_helloed hid, h.address lc, Finset.mem_insert, ← h.said, Dict.mem_iff_get]
  by_cases ha : a = address lc
  · simp [ha]
  · simp [ha]

theorem Numbering.helloed_known (h : Numbering address addrs s) {lc lcid : Nat}
    (hid : lcid = (s.lcip_to_lcid.get (s.lcs lc).address).getD s.glcid) (hin : address lc ∈ addrs) :
    Numbering address (insert (address lc) addrs) (helloed s lc lcid) := by
  have hsaid := said_helloed h hid
  rw [Finset.insert_eq_of_mem hin] at hsaid ⊢
  have hknown : (s.lcs lc).address ∈ s.lcip_to_lcid := h.address lc ▸ (h.said _).mpr hin
  obtain ⟨i, hi⟩ := Dict.mem_iff_get.mp hknown
  have hold : ∀ a, (AppManager.helloed s lc lcid).lcip_to_lcid.get a = s.lcip_to_lcid.get a := fun a => by
    rw [numbering_helloed hid]
    by_cases ha : a = (s.lcs lc).address
    · rw [if_pos ha, ha, hi, hid, hi]
      rfl
    · rw [if_neg ha]
  refine ⟨h.registered.helloed hid, fun l => ?_, ?_, hsaid, fun i => ?_, fun hle a b i ha hb => ?_⟩
  · rw [helloed_address, h.address]
  · rw [glcid_helloed, if_pos hknown]
    exact h.counter
  · simp only [hold]
    exact h.used i
  · exact h.unique hle a b i (hold a ▸ ha) (hold b ▸ hb)

theorem Numbering.helloed_new (h : Numbering address addrs s) {lc lcid : Nat}
    (hid : lcid = (s.lcip_to_lcid.get (s.lcs lc).address).getD s.glcid) (hout : address lc ∉ addrs) :
    Numbering address (insert (address lc) addrs) (helloed s lc lcid) := by
  have hnum := numbering_helloed hid
  have hmax : MAX_LC_ID = 4294967295 := rfl
  have hnew : (s.lcs lc).address ∉ s.lcip_to_lcid := fun hm => hout ((h.said _).mp (h.address lc ▸ hm))
  have hnone := Dict.get_eq_none.mpr hnew
  have hcount := h.counter
  have hcard := Finset.card_insert_of_notMem hout
  have hlcid : lcid = s.glcid := by rw [hid, hnone, Option.getD_none]
  have hfree : addrs.card + 1 ≤ MAX_LC_ID → ∀ a, s.lcip_to_lcid.get a ≠ some lcid := fun hle a ha => by
    have hbound := (h.used lcid).mp ⟨a, ha⟩
    rw [hlcid, hcount, Nat.mod_eq_of_lt hle] at hbound
    omega
  refine ⟨h.registered.helloed hid, fun l => ?_, ?_, said_helloed h hid, fun i => ?_, fun hle a b i ha hb => ?_⟩
  · rw [helloed_address, h.address]
  · rw [glcid_helloed, if_neg hnew, hcount, hcard, hmax]
    split
    · omega
    · omega
  · have hboth : (∃ a, (AppManager.helloed s lc lcid).lcip_to_lcid.get a = some i) ↔
        i = lcid ∨ ∃ a, s.lcip_to_lcid.get a = some i := by
      constructor
      · rintro ⟨a, ha⟩
        rw [hnum] at ha
        split at ha
        · cases ha
          exact Or.inl rfl
        · exact Or.inr ⟨a, ha⟩
      · rintro (rfl | ⟨a, ha⟩)
        · exact ⟨(s.lcs lc).address, by rw [hnum, if_pos rfl]⟩
        · refine ⟨a, ?_⟩
          rw [hnum, if_neg]
          · exact ha
          · rintro rfl
            rw [hnone] at ha
            cases ha
    rw [hboth, h.used i, hlcid, hcount, hcard, hmax]
    omega
  · rw [hcard] at hle
    rw [hnum] at ha hb
    by_cases ha' : a = (s.lcs lc).address
    · by_cases hb' : b = (s.lcs lc).address
      · rw [ha', hb']
      · rw [if_pos ha'] at ha
        rw [if_neg hb'] at hb
        cases ha
        exact absurd hb (hfree hle b)
    · rw [if_neg ha'] at ha
      by_cases hb' : b = (s.lcs lc).address
      · rw [if_pos hb'] at hb
        cases hb
        exact absurd ha (hfree hle a)
      · rw [if_neg hb'] at hb
        exact h.unique (by omega) a b i ha hb

theorem Numbering.helloed (h : Numbering address addrs s) {lc lcid : Nat}
    (hid : lcid = (s.lcip_to_lcid.get (s.lcs lc).address).getD s.glcid) :
    Numbering address (insert (address lc) addrs) (helloed s lc lcid) := by
  by_cases hin : address lc ∈ addrs
  · exact h.helloed_known hid hin
  · exact h.helloed_new hid hin

theorem Numbering.same {s' : AppManager env.nx.Graph} (h : Numbering address addrs s) (hs : SameCtrls s s') :
    Numbering address addrs s' where
  registered := h.registered.same hs
  address l := (hs.address l).trans (h.address l)
  counter := hs.counter.trans h.counter
  said := by rw [hs.numbering]; exact h.said
  used := by rw [hs.numbering]; exact h.used
  unique := by rw [hs.numbering]; exact h.unique

theorem receive_hello (s : AppManager env.nx.Graph) {r : Received} (hr : r.ev.msg = .HelloUp) :
    SameCtrls (helloed s r.lc ((s.lcip_to_lcid.get (s.lcs r.lc).address).getD s.glcid)) (receive env s r) := by
  refine receive_of_always _ (fun s' hs' => hs'.trans (sameCtrls_close s' r.lc)) ?_
  unfold dispatch_event
  rw [hr]
  refine Always.mono (always_hello_up r.lc s) ?_
  intro _ hpost
  obtain ⟨lcid, x, msgs, rfl, rfl, _⟩ := hpost
  exact sameCtrls_sends _ r.lc x msgs

theorem numbering_step {r : Received} (h : Numbering address addrs s) (hr : r.ev.msg = .HelloUp) :
    Numbering address (insert (address r.lc) addrs) (receive env s r) := (h.helloed rfl).same (receive_hello s hr)

/-- The addresses that have said HELLO_UP. -/
def saidHello (address : Nat → String × Nat) (rs : List Received) : Finset (String × Nat) :=
  (rs.map fun r => address r.lc).toFinset

theorem numbering_run (address : Nat → String × Nat) (xid : Nat → Nat) (rs : List Received)
    (h : ∀ r ∈ rs, r.ev.msg = .HelloUp) :
    Numbering address (saidHello address rs) (rs.foldl (receive env) (init env address xid)) := by
  induction rs using List.reverseRecOn with
  | nil => exact numbering_init address xid
  | append_singleton rs r ih =>
    have hset : saidHello address (rs ++ [r]) = insert (address r.lc) (saidHello address rs) := by
      unfold saidHello
      ext a
      simp
    rw [List.foldl_append, hset]
    exact numbering_step (ih fun r' hr' => h r' (List.mem_append_left _ hr')) (h r (by simp))

theorem Numbering.shared (h : Numbering address addrs s) (hc : MAX_LC_ID < addrs.card) :
    ∃ a b i, a ≠ b ∧ s.lcip_to_lcid.get a = some i ∧ s.lcip_to_lcid.get b = some i := by
  have hids : (Finset.Icc 1 MAX_LC_ID).card < addrs.card := by
    rw [Nat.card_Icc]
    exact hc
  have hmaps : Set.MapsTo (fun a => (s.lcip_to_lcid.get a).getD 0) addrs (Finset.Icc 1 MAX_LC_ID : Finset Nat) := by
    intro a ha
    obtain ⟨i, hi⟩ := Dict.mem_iff_get.mp ((h.said a).mpr ha)
    have hbound := (h.used i).mp ⟨a, hi⟩
    simp only [hi, Option.getD_some, Finset.coe_Icc, Set.mem_Icc]
    omega
  obtain ⟨a, ha, b, hb, hne, heq⟩ := Finset.exists_ne_map_eq_of_card_lt_of_maps_to hids hmaps
  obtain ⟨i, hi⟩ := Dict.mem_iff_get.mp ((h.said a).mpr ha)
  obtain ⟨j, hj⟩ := Dict.mem_iff_get.mp ((h.said b).mpr hb)
  simp only [hi, hj, Option.getD_some] at heq
  subst heq
  exact ⟨a, b, i, hne, hi, hj⟩

theorem Numbering.unique_iff (h : Numbering address addrs s) :
    (∀ a b i, s.lcip_to_lcid.get a = some i → s.lcip_to_lcid.get b = some i → a = b) ↔ addrs.card ≤ MAX_LC_ID := by
  refine ⟨fun hu => ?_, h.unique⟩
  by_contra hc
  obtain ⟨a, b, i, hne, ha, hb⟩ := h.shared (by omega)
  exact hne (hu a b i ha hb)

theorem Numbering.kept (h : Numbering address addrs s) {r : Received} (hr : r.ev.msg = .HelloUp) {a : String × Nat} {i : Nat}
    (ha : s.lcip_to_lcid.get a = some i) :
    (receive env s r).lcip_to_lcid.get a = some i ∧ (address r.lc = a → ((receive env s r).lcs r.lc).id = some i) := by
  have hs := receive_hello s hr
  rw [hs.numbering, hs.id, numbering_helloed rfl, helloed_id, if_pos rfl, h.address]
  constructor
  · by_cases hra : a = address r.lc
    · rw [if_pos hra, ← hra, ha]
      rfl
    · rw [if_neg hra]
      exact ha
  · rintro rfl
    rw [ha]
    rfl

theorem Numbering.replaces_iff (h : Numbering address addrs s) {r : Received} (hr : r.ev.msg = .HelloUp)
    (hnew : s.lcip_to_lcid.get (address r.lc) = none) :
    (∀ u l, s.local_ctrl_list.get u = some l → (receive env s r).local_ctrl_list.get u = some l) ↔
      addrs.card < MAX_LC_ID := by
  have hs := receive_hello s hr
  have hcount := h.counter
  have hmax : MAX_LC_ID = 4294967295 := rfl
  have hget : ∀ u, (receive env s r).local_ctrl_list.get u =
      if u = some s.glcid then some r.lc else s.local_ctrl_list.get u := fun u => by
    rw [hs.ctrls]
    rw [← h.address] at hnew
    rw [hnew, Option.getD_none]
    exact Dict.get_insert ..
  have hid : ∀ u l, s.local_ctrl_list.get u = some l → ∃ i, u = some i ∧ s.lcip_to_lcid.get (address l) = some i :=
    fun u l hu => by
      obtain ⟨hl, hne⟩ := h.registered.ctrl u l hu
      obtain ⟨i, rfl⟩ := Option.ne_none_iff_exists'.mp hne
      exact ⟨i, rfl, h.address l ▸ h.registered.numbered l i hl⟩
  constructor
  · intro hkeep
    by_contra hc
    have hused : ∃ a, s.lcip_to_lcid.get a = some s.glcid := (h.used _).mpr (by rw [hcount, hmax]; omega)
    obtain ⟨a, ha⟩ := hused
    obtain ⟨l, hl⟩ := Dict.mem_iff_get.mp (h.registered.known a _ ha).2.2
    have hsame := hkeep _ l hl
    rw [hget, if_pos rfl] at hsame
    cases hsame
    obtain ⟨i, _, hi⟩ := hid _ _ hl
    rw [hnew] at hi
    cases hi
  · intro hc u l hu
    obtain ⟨i, rfl, hi⟩ := hid u l hu
    rw [hget, if_neg]
    · exact hu
    · intro heq
      cases heq
      have hbound := (h.used _).mp ⟨_, hi⟩
      rw [hcount, Nat.mod_eq_of_lt hc] at hbound
      omega

end

section
variable (env : Env) (address : Nat → String × Nat) (xid : Nat → Nat)

/-- **The ids of the local controllers** in every run of HELLO_UPs. They are
unique as long as there are no more addresses than ids; an address keeps its id;
and a new address takes no entry of `local_ctrl_list` from another controller
until all ids are in use. -/
theorem controller_ids (rs : List Received) (h : ∀ r ∈ rs, r.ev.msg = .HelloUp) :
    let s := rs.foldl (receive env) (init env address xid)
    ((∀ a b i, s.lcip_to_lcid.get a = some i → s.lcip_to_lcid.get b = some i → a = b) ↔
      (saidHello address rs).card ≤ MAX_LC_ID) ∧
    ∀ r, r.ev.msg = .HelloUp →
      (∀ a i, s.lcip_to_lcid.get a = some i → (receive env s r).lcip_to_lcid.get a = some i ∧
        (address r.lc = a → ((receive env s r).lcs r.lc).id = some i)) ∧
      (s.lcip_to_lcid.get (address r.lc) = none →
        ((∀ u l, s.local_ctrl_list.get u = some l → (receive env s r).local_ctrl_list.get u = some l) ↔
          (saidHello address rs).card < MAX_LC_ID)) := by
  have hnum : Numbering address _ (rs.foldl (receive env) (init env address xid)) := numbering_run address xid rs h
  exact ⟨hnum.unique_iff, fun r hr => ⟨fun _ _ => hnum.kept hr, hnum.replaces_iff hr⟩⟩

end

theorem controller_ids_two :
    let s := [received 0 1 .HelloUp, received 1 1 .HelloUp].foldl (receive (sampleEnv [])) (sampleInit [])
    ((∀ a b i, s.lcip_to_lcid.get a = some i → s.lcip_to_lcid.get b = some i → a = b) ↔
      (saidHello (fun lc => ("10.0.0.1", 40000 + lc)) [received 0 1 .HelloUp, received 1 1 .HelloUp]).card ≤ MAX_LC_ID) ∧
    ∀ r, r.ev.msg = .HelloUp →
      (∀ a i, s.lcip_to_lcid.get a = some i → (receive (sampleEnv []) s r).lcip_to_lcid.get a = some i ∧
        (("10.0.0.1", 40000 + r.lc) = a → ((receive (sampleEnv []) s r).lcs r.lc).id = some i)) ∧
      (s.lcip_to_lcid.get ("10.0.0.1", 40000 + r.lc) = none →
        ((∀ u l, s.local_ctrl_list.get u = some l → (receive (sampleEnv []) s r).local_ctrl_list.get u = some l) ↔
          (saidHello (fun lc => ("10.0.0.1", 40000 + lc)) [received 0 1 .HelloUp, received 1 1 .HelloUp]).card <
            MAX_LC_ID)) :=
  controller_ids (sampleEnv []) (fun lc => ("10.0.0.1", 40000 + lc)) (fun lc => lc) _ (by decide)

/-! ## One address too many -/

/-- Addresses 10.x.y.z with the ports from 32768 on. -/
def farAddress (l : Nat) : String × Nat :=
  ("10." ++ (l / 32768 / 65536).repr ++ "." ++ (l / 32768 / 256 % 256).repr ++ "." ++ (l / 32768 % 256).repr,
    32768 + l % 32768)

def farRun : List Received := (List.range (2 ^ 32)).map fun l => received l 1 .HelloUp

theorem dot_notMem_repr (n : Nat) : '.' ∉ n.repr.toList := by
  rw [Nat.toList_repr]
  intro h
  exact absurd (Nat.isDigit_of_mem_toDigits (by decide) (by decide) h) (by decide)

/-- What stands before the first dot is told apart from what follows. -/
theorem dotted_inj : ∀ {l₁ l₂ r₁ r₂ : List Char}, '.' ∉ l₁ → '.' ∉ l₂ → l₁ ++ '.' :: r₁ = l₂ ++ '.' :: r₂ →
    l₁ = l₂ ∧ r₁ = r₂
  | [], [], _, _, _, _, h => ⟨rfl, (List.cons.inj h).2⟩
  | [], c :: l₂, _, _, _, h₂, h => absurd (List.mem_cons.mpr (Or.inl (List.cons.inj h).1)) h₂
  | c :: l₁, [], _, _, h₁, _, h => absurd (List.mem_cons.mpr (Or.inl (List.cons.inj h).1.symm)) h₁
  | c :: l₁, d :: l₂, r₁, r₂, h₁, h₂, h => by
    obtain ⟨rfl, htail⟩ := List.cons.inj h
    obtain ⟨rfl, rfl⟩ := dotted_inj (fun hm => h₁ (List.mem_cons_of_mem _ hm)) (fun hm => h₂ (List.mem_cons_of_mem _ hm)) htail
    exact ⟨rfl, rfl⟩

theorem repr_inj {m n : Nat} (h : m.repr.toList = n.repr.toList) : m = n := by
  rw [Nat.toList_repr, Nat.toList_repr] at h
  have hval := congrArg (fun l => Nat.ofDigitChars 10 l 0) h
  simpa only [Nat.ofDigitChars_ten_toDigits] using hval

theorem farAddress_injective : Function.Injective farAddress := by
  intro l l' h
  have hip := congrArg (fun a => a.1.toList) h
  have hport := congrArg Prod.snd h
  have hdot : ".".toList = ['.'] := rfl
  simp only [farAddress, String.toList_append, hdot, List.append_assoc, List.append_cancel_left_eq,
    List.cons_append, List.nil_append] at hip hport
  obtain ⟨hx, hip⟩ := dotted_inj (dot_notMem_repr _) (dot_notMem_repr _) hip
  obtain ⟨hy, hz⟩ := dotted_inj (dot_notMem_repr _) (dot_notMem_repr _) hip
  have hx := repr_inj hx
  have hy := repr_inj hy
  have hz := repr_inj hz
  omega

theorem card_farRun : (saidHello farAddress farRun).card = 2 ^ 32 := by
  have hmap : farRun.map (fun r => farAddress r.lc) = (List.range (2 ^ 32)).map farAddress := by
    unfold farRun
    rw [List.map_map]
    rfl
  unfold saidHello
  rw [hmap, List.toFinset_card_of_nodup (List.nodup_range.map farAddress_injective), List.length_map, List.length_range]

/-- Every address says HELLO_UP once, and two of them have one id. -/
theorem controller_id_shared :
    let s := farRun.foldl (receive (sampleEnv [])) (init (sampleEnv []) farAddress fun l => l)
    (∀ r ∈ farRun, r.ev.msg = .HelloUp) ∧
      ∃ a b i, a ≠ b ∧ s.lcip_to_lcid.get a = some i ∧ s.lcip_to_lcid.get b = some i := by
  have hhello : ∀ r ∈ farRun, r.ev.msg = .HelloUp := by
    intro r hr
    obtain ⟨l, _, rfl⟩ := List.mem_map.mp hr
    rfl
  have hnum : Numbering farAddress _ (farRun.foldl (receive (sampleEnv [])) (init (sampleEnv []) farAddress fun l => l)) :=
    numbering_run farAddress _ farRun hhello
  refine ⟨hhello, hnum.shared ?_⟩
  rw [card_farRun]
  decide

end AppManager

end VnfDockerNet
