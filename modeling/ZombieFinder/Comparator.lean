import ZombieFinder.Basic
import Mathlib.Data.List.Lex
import Mathlib.Data.List.Sort
import Mathlib.Data.Prod.Lex
import Mathlib.Data.List.Chain

/-
  ZombieFinder.Comparator — `ZombieOwnerComparator` and the sort of `m_ownersSorted`
  (ZombieOwners.cpp).

  `_wcsicmp` compares two names `wchar_t` by `wchar_t` (UTF-16 code units, `wideChars`) after
  the CRT's `towlower`, a proper prefix first. The comparator orders owners by descending handle
  count, then ascending case-folded name, then ascending PID; it is the strict order of the key
  `(count reversed, folded name, PID)` in lexicographic order (`comparator_iff`). So for every
  case folding it is a strict weak order, as `std::sort` requires (`comparator_irrefl`,
  `comparator_trans`, `comparator_incomparable_trans`), and total on owners with distinct PIDs
  (`comparator_total`).

  `std::sort` leaves some order sorted by the comparator; `stdSort` is insertion by "not after".
  Its result is a permutation of its input, and when the PIDs are distinct every adjacent pair
  is in comparator order (`stdSort_chain`); no other arrangement of the same owners is
  (`eq_of_perm_of_chain`).
-/

namespace ZombieFinder

/-- `_wcsicmp` on the `wchar_t`s of two names, each folded by `towlower` and compared as an
    unsigned code unit; a proper prefix compares less. -/
def wcsicmp (towlower : WChar → WChar) : List WChar → List WChar → Ordering
  | [], [] => .eq
  | [], _ :: _ => .lt
  | _ :: _, [] => .gt
  | a :: as, b :: bs =>
    if (towlower a).toNat < (towlower b).toNat then .lt
    else if (towlower b).toNat < (towlower a).toNat then .gt
    else wcsicmp towlower as bs

/-- `ZombieOwnerComparator(pA, pB)`. -/
def zombieOwnerComparator (towlower : WChar → WChar) (pA pB : ZombieOwner) : Bool :=
  if pA.zombieOwningInfo.length = pB.zombieOwningInfo.length then
    match wcsicmp towlower (wideChars pA.sExeName) (wideChars pB.sExeName) with
    | .eq => decide (pA.pid < pB.pid)
    | cmpResult => cmpResult == .lt
  else decide (pA.zombieOwningInfo.length > pB.zombieOwningInfo.length)

/-- `pA` need not come after `pB`. -/
def NotAfter (towlower : WChar → WChar) (pA pB : ZombieOwner) : Prop :=
  zombieOwnerComparator towlower pB pA = false

instance (towlower : WChar → WChar) : DecidableRel (NotAfter towlower) :=
  fun _ _ => inferInstanceAs (Decidable (_ = false))

/-- A character above U+FFFF is a surrogate pair (`0xD800` first), so it sorts before U+E000,
    whose scalar value is smaller. -/
example : wcsicmp id (wideChars (String.singleton (Char.ofNat 0x10000))) (wideChars "\uE000") = .lt := by
  decide

/-- `std::sort(m_ownersSorted.begin(), m_ownersSorted.end(), &ZombieOwnerComparator)`. -/
def stdSort (towlower : WChar → WChar) (l : List ZombieOwner) : List ZombieOwner :=
  l.insertionSort (NotAfter towlower)

/-! ## The comparator orders by a key -/

/-- A name's `wchar_t`s, case-folded, as numbers. -/
def folded (towlower : WChar → WChar) (s : String) : List Nat :=
  (wideChars s).map fun c => (towlower c).toNat

/-- The key the comparator orders by: handle count (descending), folded name, PID. -/
def ownerKey (towlower : WChar → WChar) (o : ZombieOwner) : ℕᵒᵈ ×ₗ (List ℕ ×ₗ ℕ) :=
  toLex (OrderDual.toDual o.zombieOwningInfo.length, toLex (folded towlower o.sExeName, o.pid))

section

variable (towlower : WChar → WChar)

theorem wcsicmp_spec (as bs : List WChar) :
    (wcsicmp towlower as bs = .lt ↔ as.map (fun c => (towlower c).toNat) < bs.map (fun c => (towlower c).toNat)) ∧
    (wcsicmp towlower as bs = .eq ↔ as.map (fun c => (towlower c).toNat) = bs.map (fun c => (towlower c).toNat)) := by
  induction as generalizing bs with
  | nil =>
    cases bs with
    | nil => exact ⟨by simp [wcsicmp, List.Lex.not_nil_right], by simp [wcsicmp]⟩
    | cons b bs => exact ⟨by simp [wcsicmp, List.nil_lt_cons], by simp [wcsicmp]⟩
  | cons a as ih =>
    cases bs with
    | nil => exact ⟨by simp [wcsicmp, List.Lex.not_nil_right], by simp [wcsicmp]⟩
    | cons b bs =>
      simp only [wcsicmp, List.map_cons, List.cons.injEq]
      split_ifs with h1 h2
      · exact ⟨iff_of_true rfl (List.Lex.rel h1), iff_of_false (by simp) fun h => (Nat.ne_of_lt h1) h.1⟩
      · exact ⟨iff_of_false (by simp) fun h => lt_asymm h (List.Lex.rel h2),
          iff_of_false (by simp) fun h => (Nat.ne_of_lt h2) h.1.symm⟩
      · have e : (towlower a).toNat = (towlower b).toNat := by omega
        rw [e, (ih bs).1, (ih bs).2]
        exact ⟨List.Lex.cons_iff.symm, by simp⟩

/-- The comparator's three cases, as the source writes them. -/
theorem comparator_eq_true_iff (a b : ZombieOwner) :
    zombieOwnerComparator towlower a b = true ↔
      a.zombieOwningInfo.length > b.zombieOwningInfo.length ∨
      (a.zombieOwningInfo.length = b.zombieOwningInfo.length ∧
        wcsicmp towlower (wideChars a.sExeName) (wideChars b.sExeName) = .lt) ∨
      (a.zombieOwningInfo.length = b.zombieOwningInfo.length ∧
        wcsicmp towlower (wideChars a.sExeName) (wideChars b.sExeName) = .eq ∧ a.pid < b.pid) := by
  unfold zombieOwnerComparator
  split_ifs with hc
  · cases wcsicmp towlower (wideChars a.sExeName) (wideChars b.sExeName) <;> simp [hc] <;> rfl
  · simp [hc]

/-- The comparator is the strict order of `ownerKey`. -/
theorem comparator_iff (a b : ZombieOwner) :
    zombieOwnerComparator towlower a b = true ↔ ownerKey towlower a < ownerKey towlower b := by
  have hw := wcsicmp_spec towlower (wideChars a.sExeName) (wideChars b.sExeName)
  rw [ownerKey, ownerKey, Prod.Lex.lt_iff, Prod.Lex.lt_iff]
  simp only [OrderDual.toDual_lt_toDual, OrderDual.toDual_inj, folded]
  unfold zombieOwnerComparator
  split_ifs with hc
  · simp only [hc, lt_irrefl, false_or, true_and]
    cases hcmp : wcsicmp towlower (wideChars a.sExeName) (wideChars b.sExeName) <;> rw [hcmp] at hw
    · exact iff_of_true rfl (.inl (hw.1.mp rfl))
    · rw [← hw.2.mp rfl]
      simp only [lt_irrefl, false_or, true_and, decide_eq_true_eq]
    · have h1 := hw.1; have h2 := hw.2
      simp only [reduceCtorEq, false_iff] at h1 h2
      simp only [h1, h2, false_or, false_and, iff_false]
      decide
  · simp only [gt_iff_lt, decide_eq_true_eq]
    omega

theorem comparator_irrefl (a : ZombieOwner) : zombieOwnerComparator towlower a a = false :=
  Bool.eq_false_iff.mpr fun h => lt_irrefl _ ((comparator_iff towlower a a).mp h)

theorem comparator_trans {a b c : ZombieOwner} (hab : zombieOwnerComparator towlower a b = true)
    (hbc : zombieOwnerComparator towlower b c = true) : zombieOwnerComparator towlower a c = true :=
  (comparator_iff towlower a c).mpr (((comparator_iff towlower a b).mp hab).trans ((comparator_iff towlower b c).mp hbc))

/-- Owners neither of which comes before the other have the same key. -/
theorem incomparable_iff {a b : ZombieOwner} :
    (zombieOwnerComparator towlower a b = false ∧ zombieOwnerComparator towlower b a = false) ↔
      ownerKey towlower a = ownerKey towlower b := by
  simp only [← Bool.not_eq_true, comparator_iff, not_lt]
  exact ⟨fun ⟨h1, h2⟩ => le_antisymm h2 h1, fun h => ⟨h.ge, h.le⟩⟩

theorem comparator_incomparable_trans {a b c : ZombieOwner}
    (hab : zombieOwnerComparator towlower a b = false ∧ zombieOwnerComparator towlower b a = false)
    (hbc : zombieOwnerComparator towlower b c = false ∧ zombieOwnerComparator towlower c b = false) :
    zombieOwnerComparator towlower a c = false ∧ zombieOwnerComparator towlower c a = false :=
  incomparable_iff towlower |>.mpr ((incomparable_iff towlower |>.mp hab).trans (incomparable_iff towlower |>.mp hbc))

theorem comparator_total {a b : ZombieOwner} (h : a.pid ≠ b.pid) :
    zombieOwnerComparator towlower a b = true ∨ zombieOwnerComparator towlower b a = true := by
  rw [comparator_iff, comparator_iff]
  exact lt_or_gt_of_ne fun e => h (by simpa [ownerKey] using congrArg (fun k => (ofLex (ofLex k).2).2) e)

theorem notAfter_total (a b : ZombieOwner) : NotAfter towlower a b ∨ NotAfter towlower b a := by
  unfold NotAfter
  by_cases h : zombieOwnerComparator towlower b a = true
  · exact .inr (Bool.eq_false_iff.mpr fun h' =>
      lt_asymm ((comparator_iff towlower b a).mp h) ((comparator_iff towlower a b).mp h'))
  · exact .inl (Bool.eq_false_iff.mpr h)

theorem notAfter_trans {a b c : ZombieOwner} (hab : NotAfter towlower a b) (hbc : NotAfter towlower b c) :
    NotAfter towlower a c := by
  unfold NotAfter at *
  simp only [← Bool.not_eq_true, comparator_iff, not_lt] at *
  exact hab.trans hbc

instance : IsTotal ZombieOwner (NotAfter towlower) := ⟨notAfter_total towlower⟩

instance : IsTrans ZombieOwner (NotAfter towlower) := ⟨fun _ _ _ => notAfter_trans towlower⟩

theorem stdSort_perm (l : List ZombieOwner) : (stdSort towlower l).Perm l := List.perm_insertionSort _ _

/-- Sorting owners with distinct PIDs leaves every adjacent pair in comparator order. -/
theorem stdSort_chain {l : List ZombieOwner} (hl : (l.map (·.pid)).Nodup) :
    (stdSort towlower l).Chain' fun a b => zombieOwnerComparator towlower a b = true := by
  have hn : ((stdSort towlower l).map (·.pid)).Nodup := ((stdSort_perm towlower l).map _).nodup_iff.mpr hl
  refine (((List.sorted_insertionSort _ l).and (List.Pairwise.of_map (·.pid) (fun _ _ h => h) hn)).imp ?_).chain'
  rintro a b ⟨hab, hne⟩
  exact (comparator_total towlower hne).resolve_right (by simp [NotAfter] at hab; simp [hab])

/-- Two arrangements of the same owners, each with every adjacent pair in comparator order, are
    the same list: the comparator, a strict order, leaves a sort no choice. -/
theorem eq_of_perm_of_chain {l₁ l₂ : List ZombieOwner} (hp : l₁.Perm l₂)
    (h₁ : l₁.Chain' fun a b => zombieOwnerComparator towlower a b = true)
    (h₂ : l₂.Chain' fun a b => zombieOwnerComparator towlower a b = true) : l₁ = l₂ := by
  haveI : IsTrans ZombieOwner fun a b => zombieOwnerComparator towlower a b = true :=
    ⟨fun _ _ _ => comparator_trans towlower⟩
  haveI : IsAntisymm ZombieOwner fun a b => zombieOwnerComparator towlower a b = true :=
    ⟨fun a _ hab hba => (Bool.false_ne_true ((comparator_irrefl towlower a).symm.trans
      (comparator_trans towlower hab hba))).elim⟩
  exact List.eq_of_perm_of_sorted hp (List.chain'_iff_pairwise.mp h₁) (List.chain'_iff_pairwise.mp h₂)

end

end ZombieFinder
