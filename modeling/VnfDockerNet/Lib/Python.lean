import Mathlib.Data.List.AList
import Mathlib.Data.Nat.Digits.Defs
import Mathlib.Data.List.Forall2
import Mathlib.Order.Defs.Unbundled

/-!
# Python's dictionaries, exceptions and statements

A dictionary is an association list without repeated keys; nothing here says in
which order it lists them. A statement changes a state and returns or raises:
`EStateM Exn σ`, which keeps the changes made before an exception. `wp` is the
weakest precondition of a statement, with one postcondition for returning and
one for raising; its lemmas follow the statement from left to right.
-/

namespace Python

inductive Exn where
  | AssertionError
  | AttributeError
  | IndexError
  | KeyError
  | NetworkXError
  | NetworkXNoPath
  | RuntimeError
  | StructError
  | TypeError
  | ValueError
  deriving DecidableEq, Repr

abbrev Dict (κ ν : Type) := AList fun _ : κ => ν

namespace Dict

variable {κ ν : Type} [DecidableEq κ]

def get (d : Dict κ ν) (k : κ) : Option ν := AList.lookup k d

@[simp] theorem get_empty (k : κ) : (∅ : Dict κ ν).get k = none := AList.lookup_empty k

theorem get_insert (d : Dict κ ν) (k k' : κ) (v : ν) :
    Dict.get (d.insert k v) k' = if k' = k then some v else d.get k' := by
  unfold get
  by_cases h : k' = k
  · subst h; simp
  · rw [AList.lookup_insert_ne h, if_neg h]

theorem get_erase (d : Dict κ ν) (k k' : κ) :
    Dict.get (d.erase k) k' = if k' = k then none else d.get k' := by
  unfold get
  by_cases h : k' = k
  · subst h; simp
  · rw [AList.lookup_erase_ne h, if_neg h]

theorem get_insert_some {d : Dict κ ν} {k k' : κ} {v w : ν} :
    Dict.get (d.insert k v) k' = some w ↔ k' = k ∧ w = v ∨ k' ≠ k ∧ d.get k' = some w := by
  rw [get_insert]
  by_cases h : k' = k
  · simp [h, eq_comm]
  · simp [h]

theorem get_erase_some {d : Dict κ ν} {k k' : κ} {w : ν} :
    Dict.get (d.erase k) k' = some w ↔ k' ≠ k ∧ d.get k' = some w := by
  rw [get_erase]
  by_cases h : k' = k
  · simp [h]
  · simp [h]

theorem mem_iff_get {d : Dict κ ν} {k : κ} : k ∈ d ↔ ∃ v, d.get k = some v := by
  rw [← AList.lookup_isSome, Option.isSome_iff_exists]; rfl

theorem get_eq_none {d : Dict κ ν} {k : κ} : d.get k = none ↔ k ∉ d := AList.lookup_eq_none

theorem mem_insert_of_mem {d : Dict κ ν} {k : κ} (h : k ∈ d) (v : ν) (k' : κ) : k' ∈ d.insert k v ↔ k' ∈ d := by
  rw [AList.mem_insert]
  exact ⟨fun h' => h'.elim (fun he => he ▸ h) fun h' => h', Or.inr⟩

def setdefault (d : Dict κ ν) (k : κ) (v : ν) : Dict κ ν := if k ∈ d then d else d.insert k v

theorem get_setdefault (d : Dict κ ν) (k k' : κ) (v : ν) :
    Dict.get (d.setdefault k v) k' = if k' = k then some ((d.get k).getD v) else d.get k' := by
  unfold setdefault
  by_cases hk : k ∈ d
  · rw [if_pos hk]
    by_cases h : k' = k
    · obtain ⟨w, hw⟩ := mem_iff_get.mp hk
      rw [if_pos h, h, hw, Option.getD_some]
    · rw [if_neg h]
  · rw [if_neg hk, get_insert, get_eq_none.mpr hk, Option.getD_none]

theorem mem_entries {d : Dict κ ν} {k : κ} {v : ν} : Sigma.mk k v ∈ d.entries ↔ d.get k = some v :=
  AList.mem_lookup_iff.symm

end Dict

/-! ## Statements -/

section
variable {ε σ α β : Type} {s : σ} {Q : α → σ → Prop} {E : ε → σ → Prop}

/-- From `s`, `x` returns in `Q` or raises in `E`. -/
def wp (x : EStateM ε σ α) (s : σ) (Q : α → σ → Prop) (E : ε → σ → Prop) : Prop :=
  match x s with
  | .ok a s' => Q a s'
  | .error e s' => E e s'

instance wp.decidable {x : EStateM ε σ α} [∀ a s, Decidable (Q a s)] [∀ e s, Decidable (E e s)] : Decidable (wp x s Q E) :=
  match h : x s with
  | .ok a s' => decidable_of_iff (Q a s') (by unfold wp; rw [h])
  | .error e s' => decidable_of_iff (E e s') (by unfold wp; rw [h])

@[simp] theorem wp_pure (a : α) : wp (pure a) s Q E ↔ Q a s := Iff.rfl

@[simp] theorem wp_throw (e : ε) : wp (throw e) s Q E ↔ E e s := Iff.rfl

@[simp] theorem wp_get {Q : σ → σ → Prop} : wp get s Q E ↔ Q s s := Iff.rfl

@[simp] theorem wp_modify {Q : PUnit → σ → Prop} (f : σ → σ) : wp (modify f) s Q E ↔ Q ⟨⟩ (f s) := Iff.rfl

@[simp] theorem wp_bind {Q : β → σ → Prop} (x : EStateM ε σ α) (f : α → EStateM ε σ β) :
    wp (x >>= f) s Q E ↔ wp x s (fun a s' => wp (f a) s' Q E) E := by
  show (match EStateM.bind x f s with | .ok b s' => Q b s' | .error e s' => E e s') ↔ _
  unfold EStateM.bind wp
  cases x s <;> rfl

theorem wp_ite {p : Prop} [Decidable p] (x y : EStateM ε σ α) :
    wp (if p then x else y) s Q E ↔ (p → wp x s Q E) ∧ (¬ p → wp y s Q E) := by
  by_cases h : p <;> simp [h]

theorem wp_mono {Q' : α → σ → Prop} {E' : ε → σ → Prop} {x : EStateM ε σ α} (h : wp x s Q E)
    (hQ : ∀ a s', Q a s' → Q' a s') (hE : ∀ e s', E e s' → E' e s') : wp x s Q' E' := by
  unfold wp at h ⊢
  cases hx : x s with
  | ok a s' => rw [hx] at h; exact hQ a s' h
  | error e s' => rw [hx] at h; exact hE e s' h

theorem wp_and {Q' : α → σ → Prop} {E' : ε → σ → Prop} {x : EStateM ε σ α} (h : wp x s Q E) (h' : wp x s Q' E') :
    wp x s (fun a s' => Q a s' ∧ Q' a s') fun e s' => E e s' ∧ E' e s' := by
  unfold wp at h h' ⊢
  cases hx : x s with
  | ok a s' => rw [hx] at h h'; exact ⟨h, h'⟩
  | error e s' => rw [hx] at h h'; exact ⟨h, h'⟩

theorem wp_of_ok {x : EStateM ε σ α} {a : α} {s' : σ} (h : x s = .ok a s') (hQ : Q a s') : wp x s Q E := by
  unfold wp
  rw [h]
  exact hQ

theorem post_of_ok {x : EStateM ε σ α} {a : α} {s' : σ} (h : wp x s Q E) (hx : x s = .ok a s') : Q a s' := by
  unfold wp at h
  rw [hx] at h
  exact h

theorem ok_of_wp {x : EStateM ε σ α} (h : wp x s Q fun _ _ => False) : ∃ a s', x s = .ok a s' ∧ Q a s' := by
  unfold wp at h
  cases hx : x s with
  | ok a s' => rw [hx] at h; exact ⟨a, s', rfl, h⟩
  | error e s' => rw [hx] at h; exact h.elim

end

/-! ### Loops -/

section
variable {ε σ α : Type} {E : ε → σ → Prop}

/-- `for x in xs: body(x)` -/
def forEach (body : α → EStateM ε σ Unit) : List α → EStateM ε σ Unit
  | [] => pure ()
  | x :: xs => do
    body x
    forEach body xs

/-- `I` is what holds after the items before the next one. -/
theorem wp_forEach {body : α → EStateM ε σ Unit} {xs : List α} (I : List α → σ → Prop)
    (hstep : ∀ before x after s, xs = before ++ x :: after → I before s →
      wp (body x) s (fun _ s' => I (before ++ [x]) s') E) {s : σ} (hs : I [] s) :
    wp (forEach body xs) s (fun _ s' => I xs s') E := by
  have hrun : ∀ (after before : List α) (s : σ), xs = before ++ after → I before s →
      wp (forEach body after) s (fun _ s' => I xs s') E := by
    intro after
    induction after with
    | nil =>
      intro before s hxs hI
      rw [hxs, List.append_nil]
      exact hI
    | cons x after ih =>
      intro before s hxs hI
      unfold forEach
      rw [wp_bind]
      refine wp_mono (hstep before x after s hxs hI) (fun _ s' hI' => ?_) fun _ _ he => he
      exact ih (before ++ [x]) s' (by rw [hxs, List.append_assoc]; rfl) hI'
  exact hrun xs [] s rfl hs

theorem wp_forEach_mem {body : α → EStateM ε σ Unit} {xs : List α} (I : List α → σ → Prop)
    (hstep : ∀ before, ∀ x ∈ xs, ∀ s, I before s → wp (body x) s (fun _ s' => I (before ++ [x]) s') E) {s : σ} (hs : I [] s) :
    wp (forEach body xs) s (fun _ s' => I xs s') E := by
  refine wp_forEach I (fun before x after s hsplit hI => ?_) hs
  have hx : x ∈ xs := by
    rw [hsplit]
    exact List.mem_append_right _ (List.mem_cons_self ..)
  exact hstep before x hx s hI

end

/-- The order in which a program lists the keys of its dictionaries. -/
structure DictOrder where
  order : {κ ν : Type} → [DecidableEq κ] → Dict κ ν → List κ
  order_perm : ∀ {κ ν : Type} [DecidableEq κ] (d : Dict κ ν), (order d).Perm d.keys

/-- As the entries stand. -/
def DictOrder.byEntries : DictOrder := ⟨fun d => d.entries.map Sigma.fst, fun _ => .refl _⟩

theorem DictOrder.mem {κ ν : Type} [DecidableEq κ] (o : DictOrder) {d : Dict κ ν} {k : κ} : k ∈ o.order d ↔ k ∈ d :=
  (o.order_perm d).mem_iff.trans AList.mem_keys.symm

/-! ### Returning and raising -/

section
variable {ε σ α : Type} {s : σ} {x : EStateM ε σ α} {Q : α → σ → Prop} {E : ε → σ → Prop}

def Completes (x : EStateM ε σ α) (s : σ) : Prop := wp x s (fun _ _ => True) fun _ _ => False

/-- `x` raises, and `P` holds of what it leaves. -/
def Raises (x : EStateM ε σ α) (s : σ) (P : σ → Prop) : Prop := wp x s (fun _ _ => False) fun _ => P

theorem Completes.wp (h : Completes x s) (hQ : Python.wp x s Q fun _ _ => True) : Python.wp x s Q E :=
  wp_mono (wp_and h hQ) (fun _ _ h => h.2) fun _ _ h => h.1.elim

/-- A condition on the states it can return in is a condition. -/
theorem Completes.wp_iff {P : σ → Prop} {C : Prop} (h : Completes x s) (hP : Python.wp x s (fun _ => P) fun _ _ => True)
    (hiff : ∀ a s', P s' → (Q a s' ↔ C)) : Python.wp x s Q (fun _ _ => True) ↔ C := by
  have hboth := wp_and h hP
  unfold Python.wp at hboth ⊢
  cases hx : x s with
  | ok a s' => rw [hx] at hboth; exact hiff a s' hboth.2
  | error e s' => rw [hx] at hboth; exact hboth.1.elim

theorem wp_true_iff {P : σ → Prop} : Python.wp x s (fun _ _ => True) (fun _ => P) ↔ ∀ e s', x s = .error e s' → P s' := by
  unfold Python.wp
  cases x s <;> simp

/-- A statement that can only end in `t` ends there. -/
theorem wp_iff_of_ends {t : σ} {x : EStateM ε σ Unit} {Q : Unit → σ → Prop}
    (h : Python.wp x s (fun _ s' => s' = t) fun _ _ => False) : Python.wp x s Q E ↔ Q () t := by
  obtain ⟨_, _, hx, rfl⟩ := ok_of_wp h
  unfold Python.wp
  rw [hx]

/-- A condition on every state it can end in, whether it returns or raises, is a condition. -/
theorem wp_iff_of_all {P F : σ → Prop} {C : Prop} (h : Python.wp x s (fun _ => P) fun _ => P)
    (hiff : ∀ s', P s' → (F s' ↔ C)) : Python.wp x s (fun _ => F) (fun _ => F) ↔ C := by
  unfold Python.wp at h ⊢
  cases hx : x s with
  | ok a s' => rw [hx] at h; exact hiff s' h
  | error e s' => rw [hx] at h; exact hiff s' h

theorem wp_iff_of_raises {t : σ} {P : σ → Prop} (h : Raises x s fun s' => s' = t) :
    Python.wp x s Q (fun _ => P) ↔ P t := by
  unfold Raises Python.wp at h
  unfold Python.wp
  cases hx : x s with
  | ok a s' => rw [hx] at h; exact h.elim
  | error e s' => rw [hx] at h; exact h ▸ Iff.rfl

theorem raises_of_not_completes {P : σ → Prop} (h : ¬ Completes x s) (hP : wp x s (fun _ _ => True) fun _ => P) :
    Raises x s P := by
  unfold Completes Python.wp at h
  unfold Raises Python.wp
  unfold Python.wp at hP
  cases hx : x s with
  | ok a s' => rw [hx] at h; exact h trivial
  | error e s' => rw [hx] at hP; exact hP

/-- Where every exception breaks `E`, only returning keeps it. -/
theorem wp_iff_completes (h : wp x s (fun _ _ => True) fun e s' => ¬ E e s') :
    wp x s (fun _ _ => True) E ↔ Completes x s := by
  constructor
  · intro hx
    exact wp_mono (wp_and h hx) (fun _ _ _ => trivial) fun _ _ hboth => hboth.1 hboth.2
  · exact fun hx => wp_mono hx (fun _ _ _ => trivial) fun _ _ hf => hf.elim

theorem not_wp_of_raises (h : Raises x s fun s' => ∀ e, ¬ E e s') : ¬ wp x s Q E := by
  intro hx
  have hboth := wp_and h hx
  unfold Python.wp at hboth
  cases hxs : x s with
  | ok a s' => rw [hxs] at hboth; exact hboth.1
  | error e s' => rw [hxs] at hboth; exact hboth.1 e hboth.2

end

/-! ## Lookups -/

section
variable {σ α κ ν : Type} {s : σ} {E : Exn → σ → Prop}

def orRaise : Except Exn α → EStateM Exn σ α
  | .ok a => pure a
  | .error e => throw e

/-- `d[k]` for a key that is there or not. -/
def key : Option ν → EStateM Exn σ ν
  | some v => pure v
  | none => throw .KeyError

def item [DecidableEq κ] (d : Dict κ ν) (k : κ) : EStateM Exn σ ν := key (d.get k)

/-- `xs[i]` for an index that is not negative. -/
def index {α : Type} (xs : List α) (i : Nat) : Except Exn α :=
  match xs[i]? with
  | some x => .ok x
  | none => .error .IndexError

theorem index_eq_getD {α : Type} {xs : List α} {i : Nat} (h : i < xs.length) (x : α) : index xs i = .ok (xs.getD i x) := by
  unfold index
  rw [List.getD_eq_getElem?_getD, List.getElem?_eq_getElem h]
  rfl

theorem mapM_ok {α β : Type} {f : α → Except Exn β} (P : α → β → Prop) : ∀ (xs : List α), (∀ x ∈ xs, ∃ y, f x = .ok y ∧ P x y) →
    ∃ ys, xs.mapM f = .ok ys ∧ List.Forall₂ P xs ys := by
  intro xs
  induction xs with
  | nil => exact fun _ => ⟨[], rfl, .nil⟩
  | cons x xs ih =>
    intro h
    obtain ⟨y, hy, hxy⟩ := h x (List.mem_cons_self ..)
    obtain ⟨ys, hys, hall⟩ := ih fun x' hx' => h x' (List.mem_cons_of_mem x hx')
    refine ⟨y :: ys, ?_, .cons hxy hall⟩
    rw [List.mapM_cons, hy, hys]
    rfl

theorem mapM_eq_map {α β : Type} {f : α → Except Exn β} {g : α → β} {xs : List α} (h : ∀ x ∈ xs, f x = .ok (g x)) :
    xs.mapM f = .ok (xs.map g) := by
  obtain ⟨ys, hys, hall⟩ := mapM_ok (fun x y => y = g x) xs fun x hx => ⟨g x, h x hx, rfl⟩
  have hmap : ys = xs.map g := by
    clear h hys
    induction hall with
    | nil => rfl
    | cons hy _ ih => rw [List.map_cons, hy, ih]
  rw [hys, hmap]

@[simp] theorem wp_orRaise (x : Except Exn α) {Q : α → σ → Prop} :
    wp (orRaise x) s Q E ↔ (∀ a, x = .ok a → Q a s) ∧ (∀ e, x = .error e → E e s) := by
  cases x <;> simp [orRaise]

theorem wp_orRaise_ok {x : Except Exn α} {a : α} (h : x = .ok a) {Q : α → σ → Prop} :
    wp (orRaise x) s Q E ↔ Q a s := by
  rw [h]; rfl

@[simp] theorem wp_key (v : Option ν) {Q : ν → σ → Prop} :
    wp (key v) s Q E ↔ (∀ w, v = some w → Q w s) ∧ (v = none → E .KeyError s) := by
  cases v <;> simp [key]

@[simp] theorem wp_item [DecidableEq κ] (d : Dict κ ν) (k : κ) {Q : ν → σ → Prop} :
    wp (item d k) s Q E ↔ (∀ v, d.get k = some v → Q v s) ∧ (d.get k = none → E .KeyError s) := by
  unfold item
  rw [wp_key]

theorem wp_item_some [DecidableEq κ] {d : Dict κ ν} {k : κ} {v : ν} (h : d.get k = some v) {Q : ν → σ → Prop} :
    wp (item d k) s Q E ↔ Q v s := by
  unfold item
  rw [h]; rfl

end

/-! ## Footprints -/

section
variable {ε σ α β κ ν : Type} {R R' : σ → σ → Prop}

/-- `x` moves the state along `R`, whether it returns or raises. -/
def Moves (R : σ → σ → Prop) (x : EStateM ε σ α) : Prop := ∀ s, wp x s (fun _ => R s) fun _ => R s

def Keeps (I : σ → Prop) (s s' : σ) : Prop := I s → I s'

instance (I : σ → Prop) : IsPreorder σ (Keeps I) where
  refl _ h := h
  trans _ _ _ h h' hs := h' (h hs)

theorem Moves.mono {x : EStateM ε σ α} (h : Moves R x) (hR : ∀ s s', R s s' → R' s s') : Moves R' x :=
  fun s => wp_mono (h s) (fun _ s' => hR s s') fun _ s' => hR s s'

theorem Moves.of_ok {x : EStateM ε σ α} {a : α} {s s' : σ} (h : Moves R x) (hx : x s = .ok a s') : R s s' := by
  have hpost := post_of_ok (h s) hx
  exact hpost

theorem Moves.modify {f : σ → σ} (h : ∀ s, R s (f s)) : Moves R (modify f : EStateM ε σ PUnit) := h

theorem Moves.keeps {I : σ → Prop} {x : EStateM ε σ α} (h : ∀ s, I s → wp x s (fun _ => I) fun _ => I) :
    Moves (Keeps I) x := by
  intro s
  unfold wp
  cases hx : x s with
  | ok a s' =>
    intro hs
    have := h s hs
    unfold wp at this
    rw [hx] at this
    exact this
  | error e s' =>
    intro hs
    have := h s hs
    unfold wp at this
    rw [hx] at this
    exact this

theorem Moves.kept {I : σ → Prop} {x : EStateM ε σ α} (h : Moves (Keeps I) x) (hs : I s) :
    wp x s (fun _ => I) fun _ => I := wp_mono (h s) (fun _ _ hk => hk hs) fun _ _ hk => hk hs

theorem Moves.ite {p : Prop} [Decidable p] {x y : EStateM ε σ α} (hx : Moves R x) (hy : Moves R y) :
    Moves R (if p then x else y) := by
  by_cases h : p
  · rw [if_pos h]; exact hx
  · rw [if_neg h]; exact hy

variable [IsPreorder σ R]

theorem Moves.pure (a : α) : Moves R (pure a : EStateM ε σ α) := fun s => refl_of R s

theorem Moves.throw (e : ε) : Moves R (throw e : EStateM ε σ α) := fun s => refl_of R s

theorem Moves.get : Moves R (get : EStateM ε σ σ) := fun s => refl_of R s

theorem Moves.bind {x : EStateM ε σ α} {f : α → EStateM ε σ β} (hx : Moves R x) (hf : ∀ a, Moves R (f a)) :
    Moves R (x >>= f) := by
  intro s
  rw [wp_bind]
  refine wp_mono (hx s) (fun a s' hs => ?_) fun _ _ hs => hs
  exact wp_mono (hf a s') (fun _ _ hs' => trans_of R hs hs') fun _ _ hs' => trans_of R hs hs'

theorem Moves.orRaise (x : Except Exn α) : Moves R (orRaise x) := by
  cases x with
  | ok a => exact .pure a
  | error e => exact .throw e

theorem Moves.key (v : Option ν) : Moves R (key v) := by
  cases v with
  | some v => exact .pure v
  | none => exact .throw _

theorem Moves.item [DecidableEq κ] (d : Dict κ ν) (k : κ) : Moves R (item d k) := .key _

end

/-! ## Numbers as texts -/

/-- `'%0{width}x' % n`. -/
def hexText (width n : Nat) : List Char :=
  let digits := Nat.toDigits 16 n
  List.replicate (width - digits.length) '0' ++ digits

/-- `int(text)` of a text without signs and spaces. -/
def int (text : List Char) : Except Exn Nat :=
  if text ≠ [] ∧ text.all Char.isDigit = true then .ok (text.foldl (fun n c => 10 * n + (c.toNat - '0'.toNat)) 0)
  else .error .ValueError

/-- The number that a text in hexadecimal digits stands for. -/
def hexValue (text : List Char) : Nat :=
  text.foldl (fun n c => 16 * n + if c.isDigit then c.toNat - 48 else c.toNat - 87) 0

theorem hexValue_snoc (text : List Char) (c : Char) :
    hexValue (text ++ [c]) = 16 * hexValue text + if c.isDigit then c.toNat - 48 else c.toNat - 87 := by
  unfold hexValue
  rw [List.foldl_append]
  rfl

theorem hexValue_toDigits (n : Nat) : hexValue (Nat.toDigits 16 n) = n := by
  have hdigit : ∀ d < 16, (if (Nat.digitChar d).isDigit then (Nat.digitChar d).toNat - 48
      else (Nat.digitChar d).toNat - 87) = d := by decide
  induction n using Nat.strongRecOn with
  | ind n ih =>
    rw [Nat.toDigits_eq_if (by omega)]
    by_cases h : n < 16
    · rw [if_pos h]
      have := hexValue_snoc [] (Nat.digitChar n)
      rw [hdigit n h] at this
      simpa [hexValue] using this
    · rw [if_neg h, hexValue_snoc, ih (n / 16) (by omega), hdigit (n % 16) (by omega)]
      omega

theorem hexValue_hexText (width n : Nat) : hexValue (hexText width n) = n := by
  have hzeros : ∀ (k : Nat) (text : List Char), hexValue (List.replicate k '0' ++ text) = hexValue text := by
    intro k text
    induction k with
    | zero => rfl
    | succ k ih =>
      rw [List.replicate_succ, List.cons_append, ← ih]
      rfl
  unfold hexText
  rw [hzeros, hexValue_toDigits]

theorem hexText_injective {width n m : Nat} (h : hexText width n = hexText width m) : n = m := by
  rw [← hexValue_hexText width n, h, hexValue_hexText]

/-- A text in hexadecimal digits has no other character. -/
theorem notMem_hexText {c : Char} (hc : ∀ d < 16, Nat.digitChar d ≠ c) (width n : Nat) : c ∉ hexText width n := by
  have hdigits : c ∉ Nat.toDigits 16 n := by
    induction n using Nat.strongRecOn with
    | ind n ih =>
      rw [Nat.toDigits_eq_if (by omega)]
      by_cases h : n < 16
      · rw [if_pos h, List.mem_singleton]
        exact (hc n h).symm
      · rw [if_neg h, List.mem_append, List.mem_singleton]
        rintro (hmem | heq)
        · exact ih (n / 16) (by omega) hmem
        · exact hc (n % 16) (by omega) heq.symm
  intro h
  rcases List.mem_append.mp h with hzero | hmem
  · exact hc 0 (by omega) (List.eq_of_mem_replicate hzero).symm
  · exact hdigits hmem

/-! ### Hexadecimal texts read as decimals -/

/-- The number that the decimal digits of `p` stand for in hexadecimal. -/
def asHex (p : Nat) : Nat := Nat.ofDigits 16 (Nat.digits 10 p)

theorem asHex_eq (p : Nat) : asHex p = p % 10 + 16 * asHex (p / 10) := by
  unfold asHex
  by_cases h : p = 0
  · subst h
    simp
  · rw [Nat.digits_def' (by decide) (Nat.pos_of_ne_zero h), Nat.ofDigits_cons]

theorem asHex_lt {p : Nat} (h : p < 10) : asHex p = p := by
  rw [asHex_eq, Nat.div_eq_of_lt h, Nat.mod_eq_of_lt h]
  rfl

theorem asHex_pos {p : Nat} (h : 0 < p) : 0 < asHex p := by
  induction p using Nat.strongRecOn with
  | ind p ih =>
    rw [asHex_eq]
    by_cases hlt : p < 10
    · rw [Nat.mod_eq_of_lt hlt]
      omega
    · have := ih (p / 10) (by omega) (by omega)
      omega

/-- What `int` reads from digits. -/
def decValue (text : List Char) : Nat := text.foldl (fun n c => 10 * n + (c.toNat - '0'.toNat)) 0

theorem decValue_snoc (text : List Char) (c : Char) :
    decValue (text ++ [c]) = 10 * decValue text + (c.toNat - '0'.toNat) := by
  unfold decValue
  rw [List.foldl_append]
  rfl

theorem int_eq_ok {text : List Char} {p : Nat} :
    int text = .ok p ↔ text ≠ [] ∧ text.all Char.isDigit = true ∧ decValue text = p := by
  unfold int
  by_cases h : text ≠ [] ∧ text.all Char.isDigit = true
  · rw [if_pos h, Except.ok.injEq]
    exact ⟨fun hp => ⟨h.1, h.2, hp⟩, fun hp => hp.2.2⟩
  · rw [if_neg h]
    refine iff_of_false (fun hp => ?_) fun hp => h ⟨hp.1, hp.2.1⟩
    cases hp

theorem decimal_toDigits (q : Nat) : ∀ p, ((Nat.toDigits 16 q).all Char.isDigit = true ∧ decValue (Nat.toDigits 16 q) = p) ↔
    asHex p = q := by
  have hdigit : ∀ d < 16, ((Nat.digitChar d).isDigit = true ↔ d < 10) ∧
      (d < 10 → (Nat.digitChar d).toNat - '0'.toNat = d) := by decide
  induction q using Nat.strongRecOn with
  | ind q ih =>
    intro p
    rw [Nat.toDigits_eq_if (by omega)]
    by_cases h : q < 16
    · obtain ⟨hdig, hval⟩ := hdigit q h
      have hsnoc : decValue [Nat.digitChar q] = (Nat.digitChar q).toNat - '0'.toNat := by
        simp [decValue]
      rw [if_pos h, List.all_cons, List.all_nil, Bool.and_true, hdig, hsnoc]
      constructor
      · intro hlt
        obtain ⟨hlt, rfl⟩ := hlt
        rw [hval hlt, asHex_lt hlt]
      · intro hp
        have hp10 : p < 10 := by
          by_contra hge
          have hpos := asHex_pos (p := p / 10) (by omega)
          rw [asHex_eq] at hp
          omega
        rw [asHex_lt hp10] at hp
        subst hp
        exact ⟨hp10, hval hp10⟩
    · obtain ⟨hdig, hval⟩ := hdigit (q % 16) (by omega)
      have hih := ih (q / 16) (by omega)
      rw [if_neg h, List.all_append, List.all_cons, List.all_nil, Bool.and_true, Bool.and_eq_true, hdig, decValue_snoc]
      constructor
      · intro hall
        obtain ⟨⟨hall, hlt⟩, rfl⟩ := hall
        have hrest := (hih _).mp ⟨hall, rfl⟩
        rw [hval hlt, asHex_eq]
        have hmod : (10 * decValue (Nat.toDigits 16 (q / 16)) + q % 16) % 10 = q % 16 := by omega
        have hdiv : (10 * decValue (Nat.toDigits 16 (q / 16)) + q % 16) / 10 = decValue (Nat.toDigits 16 (q / 16)) := by omega
        rw [hmod, hdiv, hrest]
        omega
      · intro hp
        rw [asHex_eq] at hp
        have hmod : q % 16 = p % 10 := by omega
        have hdiv : asHex (p / 10) = q / 16 := by omega
        obtain ⟨hall, hval'⟩ := (hih (p / 10)).mpr hdiv
        have hlt : q % 16 < 10 := by omega
        refine ⟨⟨hall, hlt⟩, ?_⟩
        rw [hval hlt, hval']
        omega

theorem int_hexText (width q p : Nat) : int (hexText width q) = .ok p ↔ asHex p = q := by
  have hzeros : ∀ (k : Nat) (text : List Char), (List.replicate k '0' ++ text).all Char.isDigit = text.all Char.isDigit ∧
      decValue (List.replicate k '0' ++ text) = decValue text := by
    intro k text
    induction k with
    | zero => exact ⟨rfl, rfl⟩
    | succ k ih =>
      rw [List.replicate_succ, List.cons_append]
      exact ⟨ih.1, ih.2⟩
  unfold hexText
  obtain ⟨hall, hval⟩ := hzeros (width - (Nat.toDigits 16 q).length) (Nat.toDigits 16 q)
  rw [int_eq_ok, hall, hval, decimal_toDigits]
  refine and_iff_right fun hnil => ?_
  exact Nat.toDigits_ne_nil (List.append_eq_nil_iff.mp hnil).2
end Python
