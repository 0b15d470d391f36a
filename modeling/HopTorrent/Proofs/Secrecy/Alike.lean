import HopTorrent.Error
import HopTorrent.Table
import Mathlib.Data.List.Forall2
import Mathlib.Data.Option.Basic

/-!
# Proofs/Secrecy/Alike — two runs side by side

Two runs that differ in secrets only go through the same steps, so they are compared step by step.
Errors are alike when they differ in their texts only, however deep these lie (`Error.Alike`); an
outcome concurs with another when both are results or both are errors that are alike (`Concur`).
`Paired` is what two activities do side by side: begun in states that are related they come to
results that are related, and leave such states again.  Tables are alike when their entries
correspond in order, keys one to one (`Table.Alike`).
-/

namespace HopTorrent

/-! ## Errors -/

namespace Error

/-- An error without its texts. -/
def wordless : Error → Error
  | validation _ => validation ""
  | notFound _ => notFound ""
  | metadataTimeout => metadataTimeout
  | proxyUnreachable hop _ => proxyUnreachable hop ""
  | dial attempts last => dial attempts last.wordless
  | socks _ => socks ""
  | network _ => network ""
  | cancelled => cancelled
  | timeout => timeout
  | engine _ => engine ""
  | storage _ => storage ""
  | config _ => config ""

/-- **Two errors are alike** when they differ in their texts only. -/
def Alike (e e' : Error) : Prop := e.wordless = e'.wordless

instance : DecidableRel Alike := fun e e' => inferInstanceAs (Decidable (e.wordless = e'.wordless))

theorem Alike.refl (e : Error) : e.Alike e := rfl

/-- What is shown to anyone does not depend on the texts. -/
@[simp] theorem message_wordless (e : Error) : e.wordless.message = e.message := by
  cases e <;> rfl

/-- Whether to try again does not depend on the texts. -/
@[simp] theorem retryable_wordless (e : Error) : e.wordless.retryable = e.retryable := by
  cases e <;> rfl

theorem Alike.message_eq {e e' : Error} (h : e.Alike e') : e.message = e'.message := by
  rw [← message_wordless e, h, message_wordless]

theorem Alike.retryable_eq {e e' : Error} (h : e.Alike e') : e.retryable = e'.retryable := by
  rw [← retryable_wordless e, h, retryable_wordless]

/-- Failed dials are alike when their last errors are. -/
theorem Alike.dial {e e' : Error} (h : e.Alike e') (attempts : Nat) :
    (Error.dial attempts e).Alike (.dial attempts e') :=
  congrArg (Error.dial attempts) h

end Error

/-! ## Outcomes -/

section Concur

variable {α β α' β' : Type}

/-- **Two outcomes concur**: both are results, and related, or both are errors that are alike. -/
inductive Concur (A : α → β → Prop) : Except Error α → Except Error β → Prop
  | ok {a : α} {b : β} (h : A a b) : Concur A (.ok a) (.ok b)
  | error {e e' : Error} (h : e.Alike e') : Concur A (.error e) (.error e')

variable {A : α → β → Prop} {r : Except Error α} {r' : Except Error β}

/-- Outcomes that concur still do when their results are seen through functions. -/
theorem Concur.map {B : α' → β' → Prop} {f : α → α'} {g : β → β'} (h : Concur A r r')
    (hf : ∀ a b, A a b → B (f a) (g b)) : Concur B (r.map f) (r'.map g) := by
  cases h with
  | ok h => exact .ok (hf _ _ h)
  | error h => exact .error h

end Concur

/-! ## Lists -/

section Lists

variable {α β : Type} {A : α → β → Prop} {xs : List α} {ys : List β}

/-- Lists that correspond are the two sides of one list of pairs. -/
theorem exists_pairs_of_forall₂ (h : List.Forall₂ A xs ys) :
    ∃ zs : List (α × β), (∀ z ∈ zs, A z.1 z.2) ∧ xs = zs.map Prod.fst ∧ ys = zs.map Prod.snd := by
  obtain ⟨hl, hz⟩ := List.forall₂_iff_zip.mp h
  exact ⟨xs.zip ys, fun _ hm => hz hm, (List.map_fst_zip (Nat.le_of_eq hl)).symm,
    (List.map_snd_zip (Nat.le_of_eq hl.symm)).symm⟩

/-- The two sides of a list of pairs correspond. -/
theorem forall₂_of_pairs {zs : List (α × β)} (h : ∀ z ∈ zs, A z.1 z.2) :
    List.Forall₂ A (zs.map Prod.fst) (zs.map Prod.snd) := by
  rw [List.forall₂_map_left_iff, List.forall₂_map_right_iff, List.forall₂_same]
  exact h

/-- **Lists that correspond do so when sorted**, if corresponding elements compare alike. -/
theorem forall₂_mergeSort {le : α → α → Bool} {le' : β → β → Bool} (h : List.Forall₂ A xs ys)
    (hle : ∀ a b a' b', A a a' → A b b' → le a b = le' a' b') :
    List.Forall₂ A (xs.mergeSort le) (ys.mergeSort le') := by
  obtain ⟨zs, hz, rfl, rfl⟩ := exists_pairs_of_forall₂ h
  have hx : (zs.map Prod.fst).mergeSort le
      = (zs.mergeSort fun p q => le p.1 q.1).map Prod.fst :=
    (List.map_mergeSort (by intros; rfl)).symm
  have hy : (zs.map Prod.snd).mergeSort le'
      = (zs.mergeSort fun p q => le p.1 q.1).map Prod.snd :=
    (List.map_mergeSort fun p hp q hq => hle _ _ _ _ (hz p hp) (hz q hq)).symm
  rw [hx, hy]
  exact forall₂_of_pairs fun z hm => hz z (List.mem_mergeSort.mp hm)

/-- What lists that correspond hold in one place. -/
theorem forall₂_getElem? (h : List.Forall₂ A xs ys) (i : Nat) : Option.Rel A xs[i]? ys[i]? := by
  induction h generalizing i with
  | nil => exact .none
  | cons hxy _ ih =>
    cases i with
    | zero => exact .some hxy
    | succ i => exact ih i

/-- Lists still correspond when one place is given to corresponding elements. -/
theorem forall₂_set (h : List.Forall₂ A xs ys) (i : Nat) {a : α} {b : β} (hab : A a b) :
    List.Forall₂ A (xs.set i a) (ys.set i b) := by
  induction h generalizing i with
  | nil => exact .nil
  | cons hxy hrest ih =>
    cases i with
    | zero => exact .cons hab hrest
    | succ i => exact .cons hxy (ih i)

end Lists

/-! ## Activities -/

section Paired

variable {σ τ α β α' β' : Type} {P : σ → τ → Prop} {Q : α → β → Prop} {Q' : α' → β' → Prop}

/-- **Two activities side by side**: begun in states related by `P`, they come to results related by
`Q` and leave states related by `P` again. -/
def Paired (P : σ → τ → Prop) (m : StateM σ α) (m' : StateM τ β) (Q : α → β → Prop) : Prop :=
  ∀ s s', P s s' → Q (m.run s).1 (m'.run s').1 ∧ P (m.run s).2 (m'.run s').2

variable {m : StateM σ α} {m' : StateM τ β} {f : α → StateM σ α'} {f' : β → StateM τ β'}

theorem Paired.pure {a : α} {b : β} (h : Q a b) : Paired P (pure a) (pure b) Q :=
  fun _ _ hs => ⟨h, hs⟩

/-- One pair after another. -/
theorem Paired.bind (h : Paired P m m' Q) (hf : ∀ a b, Q a b → Paired P (f a) (f' b) Q') :
    Paired P (m >>= f) (m' >>= f') Q' := fun s s' hs => hf _ _ (h s s' hs).1 _ _ (h s s' hs).2

/-- What follows a look at the states may rest on what relates them. -/
theorem Paired.get {f : σ → StateM σ α} {f' : τ → StateM τ β}
    (h : ∀ s s', P s s' → Paired P (f s) (f' s') Q) : Paired P (get >>= f) (get >>= f') Q :=
  fun s s' hs => h s s' hs s s' hs

theorem Paired.set {s : σ} {s' : τ} (h : P s s') :
    Paired P (set s : StateM σ Unit) (set s' : StateM τ Unit) fun _ _ => True :=
  fun _ _ _ => ⟨trivial, h⟩

theorem Paired.modify {g : σ → σ} {g' : τ → τ} (h : ∀ s s', P s s' → P (g s) (g' s')) :
    Paired P (modify g : StateM σ Unit) (modify g' : StateM τ Unit) fun _ _ => True :=
  fun s s' hs => ⟨trivial, h s s' hs⟩

/-- **A loop over lists that correspond** keeps what every round keeps. -/
theorem Paired.forM {ι κ : Type} {A : ι → κ → Prop} {g : ι → StateM σ PUnit}
    {g' : κ → StateM τ PUnit} {xs : List ι} {ys : List κ} (h : List.Forall₂ A xs ys)
    (hg : ∀ x y, A x y → Paired P (g x) (g' y) fun _ _ => True) :
    Paired P (xs.forM g) (ys.forM g') fun _ _ => True := by
  induction h with
  | nil => exact .pure trivial
  | cons hxy _ ih => exact (hg _ _ hxy).bind fun _ _ _ => ih

end Paired

/-! ## Tables -/

namespace Table

variable {κ κ' ν ν' : Type} {K : κ → κ' → Prop} {V : ν → ν' → Prop} {xs : List (κ × ν)}
  {ys : List (κ' × ν')} {k : κ} {k' : κ'}

/-- Keys correspond one to one. -/
def OneToOne (K : κ → κ' → Prop) : Prop := ∀ a a' b b', K a a' → K b b' → (a = b ↔ a' = b')

theorem OneToOne.eq : OneToOne (Eq : κ → κ → Prop) := by
  rintro a _ b _ rfl rfl
  exact Iff.rfl

/-- Entries correspond, key by key and value by value. -/
def Entry (K : κ → κ' → Prop) (V : ν → ν' → Prop) (x : κ × ν) (y : κ' × ν') : Prop :=
  K x.1 y.1 ∧ V x.2 y.2

/-- **Two tables are alike**: their entries correspond, in order. -/
def Alike (K : κ → κ' → Prop) (V : ν → ν' → Prop) (t : Table κ ν) (t' : Table κ' ν') : Prop :=
  List.Forall₂ (Entry K V) t.entries t'.entries

theorem Alike.size_eq {t : Table κ ν} {t' : Table κ' ν'} (h : t.Alike K V t') :
    t.size = t'.size := h.length_eq

theorem Alike.empty : (empty : Table κ ν).Alike K V (empty : Table κ' ν') := .nil

/-- Tables stay alike when functions are applied to their values. -/
theorem Alike.mapValues {μ μ' : Type} {W : μ → μ' → Prop} {t : Table κ ν} {t' : Table κ' ν'}
    {f : κ → ν → μ} {f' : κ' → ν' → μ'} (h : t.Alike K V t')
    (hf : ∀ k k' v v', K k k' → V v v' → W (f k v) (f' k' v')) :
    (t.mapValues f).Alike K W (t'.mapValues f') :=
  List.forall₂_map_left_iff.mpr <| List.forall₂_map_right_iff.mpr <|
    h.imp fun _ _ hxy => ⟨hxy.1, hf _ _ _ _ hxy.1 hxy.2⟩

/-- Corresponding keys are present or absent together. -/
theorem mem_keys_iff_of_alike (hK : OneToOne K) (h : List.Forall₂ (Entry K V) xs ys)
    (hk : K k k') : k ∈ xs.map Prod.fst ↔ k' ∈ ys.map Prod.fst := by
  induction h with
  | nil => exact iff_of_false List.not_mem_nil List.not_mem_nil
  | cons hxy _ ih =>
    rw [List.map_cons, List.map_cons, List.mem_cons, List.mem_cons, ih]
    exact or_congr_left (hK _ _ _ _ hk hxy.1)

variable [DecidableEq κ] [DecidableEq κ'] {t : Table κ ν} {t' : Table κ' ν'} {v : ν} {v' : ν'}

/-- What corresponding keys find among corresponding entries. -/
theorem find_alike (hK : OneToOne K) (h : List.Forall₂ (Entry K V) xs ys) (hk : K k k') :
    Option.Rel V (find k xs) (find k' ys) := by
  induction h with
  | nil => exact .none
  | @cons x _ _ _ hxy _ ih =>
    rw [find, find]
    by_cases he : x.1 = k
    · rw [if_pos he, if_pos ((hK _ _ _ _ hxy.1 hk).mp he)]
      exact .some hxy.2
    · rw [if_neg he, if_neg fun he' => he ((hK _ _ _ _ hxy.1 hk).mpr he')]
      exact ih

/-- Corresponding values take the places of corresponding entries. -/
theorem replaced_alike (hK : OneToOne K) (h : List.Forall₂ (Entry K V) xs ys) (hk : K k k')
    (hv : V v v') : List.Forall₂ (Entry K V) (replaced k v xs) (replaced k' v' ys) := by
  induction h with
  | nil => exact .nil
  | @cons x _ _ _ hxy _ ih =>
    refine .cons ?_ ih
    by_cases he : x.1 = k
    · rw [if_pos he, if_pos ((hK _ _ _ _ hxy.1 hk).mp he)]
      exact ⟨hk, hv⟩
    · rw [if_neg he, if_neg fun he' => he ((hK _ _ _ _ hxy.1 hk).mpr he')]
      exact hxy

/-- **What tables that are alike hold** under corresponding keys. -/
theorem Alike.get? (h : t.Alike K V t') (hK : OneToOne K) (hk : K k k') :
    Option.Rel V (t.get? k) (t'.get? k') := find_alike hK h hk

/-- Tables stay alike when corresponding values are put under corresponding keys. -/
theorem Alike.put (h : t.Alike K V t') (hK : OneToOne K) (hk : K k k') (hv : V v v') :
    (t.put k v).Alike K V (t'.put k' v') := by
  have hm := mem_keys_iff_of_alike hK h hk
  rw [Table.put, Table.put]
  by_cases hp : k ∈ t.entries.map Prod.fst
  · rw [dif_pos hp, dif_pos (hm.mp hp)]
    exact replaced_alike hK h hk hv
  · rw [dif_neg hp, dif_neg fun hp' => hp (hm.mpr hp')]
    exact List.rel_append h (.cons ⟨hk, hv⟩ .nil)

/-- Tables stay alike when corresponding keys are taken away. -/
theorem Alike.erase (h : t.Alike K V t') (hK : OneToOne K) (hk : K k k') :
    (t.erase k).Alike K V (t'.erase k') := by
  refine List.rel_filter (fun x y hxy => ?_) h
  simpa using not_congr (hK _ _ _ _ hxy.1 hk)

end Table

end HopTorrent
