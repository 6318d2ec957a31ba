import ZombieFinder.Basic

/-
  ZombieFinder.Handles — what the code does with kernel handles, as a trace.

  A run's handle events are `opened h` (a kernel call returned `h`: `NtGetNextProcess`,
  `NtGetNextThread`, `OpenProcess`, `OpenThreadToken`), `used h` (`h` passed to a kernel call)
  and `closed h` (`CloseHandle(h)`), in the order the code makes the calls. The handles open
  after a trace are `openAfter`.

  Both sides of the interface are conditions along a trace (`Along`): the kernel's side
  (`Fresh`: a handle it returns is not one already open) and the program's (`Disciplined`: it
  passes and closes only open handles). A handle value the kernel reuses after a close is a
  new handle; under `Disciplined` a handle is closed at most once per opening, and a handle
  absent from `openAfter` was closed.

  `Moves o o' tr` is both sides at once: under a fresh kernel, the trace is disciplined from `o`
  and leaves `o'` open. It composes event by event (`Moves.used`, `Moves.opened`, …), and
  `Moves.next` / `moves_last` are one iteration and the end of an `NtGetNext…` loop that holds
  the previous handle (`withPrev`). `Restores` is `Moves o o` for every `o`.
-/

namespace ZombieFinder

inductive HandleEvent where
  | opened (h : Handle)
  | used (h : Handle)
  | closed (h : Handle)
  deriving DecidableEq, Repr

namespace HandleEvent

def apply : HandleEvent → Finset Handle → Finset Handle
  | opened h, o => insert h o
  | used _, o => o
  | closed h, o => o.erase h

/-- The kernel's side: a returned handle is not open. -/
def fresh (o : Finset Handle) : HandleEvent → Prop
  | opened h => h ∉ o
  | _ => True

/-- The program's side: a handle it passes or closes is open. -/
def ok (o : Finset Handle) : HandleEvent → Prop
  | opened _ => True
  | used h => h ∈ o
  | closed h => h ∈ o

instance (o : Finset Handle) : (e : HandleEvent) → Decidable (e.fresh o)
  | opened h => inferInstanceAs (Decidable (h ∉ o))
  | used _ => isTrue trivial
  | closed _ => isTrue trivial

instance (o : Finset Handle) : (e : HandleEvent) → Decidable (e.ok o)
  | opened _ => isTrue trivial
  | used h => inferInstanceAs (Decidable (h ∈ o))
  | closed h => inferInstanceAs (Decidable (h ∈ o))

end HandleEvent

def openAfter (o : Finset Handle) (tr : List HandleEvent) : Finset Handle :=
  tr.foldl (fun o e => e.apply o) o

/-- `P` holds of every event, in the open set just before it. -/
def Along (P : Finset Handle → HandleEvent → Prop) : Finset Handle → List HandleEvent → Prop
  | _, [] => True
  | o, e :: tr => P o e ∧ Along P (e.apply o) tr

instance decAlong {P : Finset Handle → HandleEvent → Prop} [∀ o e, Decidable (P o e)] :
    ∀ o tr, Decidable (Along P o tr)
  | _, [] => isTrue trivial
  | o, e :: tr => haveI := decAlong (P := P) (e.apply o) tr; inferInstanceAs (Decidable (P o e ∧ _))

def Fresh : Finset Handle → List HandleEvent → Prop := Along HandleEvent.fresh
def Disciplined : Finset Handle → List HandleEvent → Prop := Along HandleEvent.ok

instance (o : Finset Handle) (tr : List HandleEvent) : Decidable (Fresh o tr) := decAlong o tr
instance (o : Finset Handle) (tr : List HandleEvent) : Decidable (Disciplined o tr) := decAlong o tr

/-- `h` is passed to a call when the handle variable holds one. -/
def usedOpt (h : Option Handle) : List HandleEvent := h.toList.map .used

section

variable {P : Finset Handle → HandleEvent → Prop} {o : Finset Handle} {a b tr : List HandleEvent}

@[simp] theorem openAfter_nil : openAfter o [] = o := rfl
@[simp] theorem openAfter_cons (e : HandleEvent) : openAfter o (e :: a) = openAfter (e.apply o) a := rfl
theorem openAfter_append : openAfter o (a ++ b) = openAfter (openAfter o a) b := List.foldl_append ..

@[simp] theorem along_nil : Along P o [] := trivial
@[simp] theorem along_cons (e : HandleEvent) : Along P o (e :: a) ↔ P o e ∧ Along P (e.apply o) a := .rfl

theorem along_append : Along P o (a ++ b) ↔ Along P o a ∧ Along P (openAfter o a) b := by
  induction a generalizing o with
  | nil => simp
  | cons e a ih => simp [ih, and_assoc]

theorem Along.of_initial (h : Along P o b) (hp : a <+: b) : Along P o a := by
  obtain ⟨c, rfl⟩ := hp; exact (along_append.mp h).1

@[simp] theorem apply_opened (h : Handle) : (HandleEvent.opened h).apply o = insert h o := rfl
@[simp] theorem apply_used (h : Handle) : (HandleEvent.used h).apply o = o := rfl
@[simp] theorem apply_closed (h : Handle) : (HandleEvent.closed h).apply o = o.erase h := rfl
@[simp] theorem fresh_opened (h : Handle) : (HandleEvent.opened h).fresh o ↔ h ∉ o := .rfl
@[simp] theorem fresh_used (h : Handle) : (HandleEvent.used h).fresh o := trivial
@[simp] theorem fresh_closed (h : Handle) : (HandleEvent.closed h).fresh o := trivial
@[simp] theorem ok_opened (h : Handle) : (HandleEvent.opened h).ok o := trivial
@[simp] theorem ok_used (h : Handle) : (HandleEvent.used h).ok o ↔ h ∈ o := .rfl
@[simp] theorem ok_closed (h : Handle) : (HandleEvent.closed h).ok o ↔ h ∈ o := .rfl

@[simp] theorem usedOpt_none : usedOpt none = [] := rfl
@[simp] theorem usedOpt_some (h : Handle) : usedOpt (some h) = [.used h] := rfl
@[simp] theorem openAfter_usedOpt (h : Option Handle) : openAfter o (usedOpt h) = o := by
  cases h <;> rfl

theorem disciplined_usedOpt {h : Option Handle} (hh : ∀ x ∈ h, x ∈ o) : Disciplined o (usedOpt h) := by
  cases h with
  | none => trivial
  | some x => exact ⟨hh x rfl, trivial⟩

/-- Closing a list of distinct open handles, one after the other, is disciplined and leaves
    exactly the others open. -/
theorem disciplined_close_all {hs : List Handle} (hn : hs.Nodup) (hsub : ∀ h ∈ hs, h ∈ o) :
    Disciplined o (hs.map .closed) ∧ openAfter o (hs.map .closed) = o \ hs.toFinset := by
  induction hs generalizing o with
  | nil => simp [Disciplined]
  | cons h hs ih =>
    obtain ⟨hh, hn⟩ := List.nodup_cons.mp hn
    have ⟨hd, ho⟩ := @ih (o.erase h) hn fun x hx =>
      Finset.mem_erase.mpr ⟨fun e => hh (e ▸ hx), hsub x (List.mem_cons_of_mem _ hx)⟩
    refine ⟨⟨hsub h (List.mem_cons_self _ _), hd⟩, ?_⟩
    simp only [List.map_cons, openAfter_cons, apply_closed, ho]
    ext x; simp only [Finset.mem_sdiff, Finset.mem_erase, List.mem_toFinset, List.mem_cons, not_or]
    rw [and_assoc]; exact and_left_comm

/-- Along a disciplined trace of fresh handles, every opening of a handle value is matched by one
    close, except the opening still open at the end; a handle open at the start is closed at
    most once. -/
theorem count_balance : ∀ {o : Finset Handle} {tr : List HandleEvent}, Disciplined o tr → Fresh o tr → ∀ h,
    tr.count (.closed h) + (if h ∈ openAfter o tr then 1 else 0) =
      tr.count (.opened h) + (if h ∈ o then 1 else 0)
  | _, [], _, _, _ => by simp
  | o, e :: tr, ⟨hd, hd'⟩, ⟨hf, hf'⟩, h => by
    have ih := count_balance hd' hf' h
    cases e with
    | opened x =>
      simp only [fresh_opened] at hf
      by_cases e : x = h
      · subst e; simp_all [List.count_cons]
      · simp_all [List.count_cons, Finset.mem_insert, Ne.symm e]
    | used x => simpa [List.count_cons] using ih
    | closed x =>
      simp only [ok_closed] at hd
      by_cases e : x = h
      · subst e; simp_all [List.count_cons]; omega
      · simp_all [List.count_cons, Finset.mem_erase, Ne.symm e]

/-- A call that, from any open set and under a kernel that returns fresh handles, passes and closes
    only open handles and leaves open exactly what was open before. -/
def Restores (tr : List HandleEvent) : Prop :=
  ∀ o, Fresh o tr → Disciplined o tr ∧ openAfter o tr = o

/-- From the open set `o`, under a kernel that returns fresh handles, the trace passes and closes
    only open handles and leaves `o'` open. -/
def Moves (o o' : Finset Handle) (tr : List HandleEvent) : Prop :=
  Fresh o tr → Disciplined o tr ∧ openAfter o tr = o'

theorem moves_nil : Moves o o [] := fun _ => ⟨trivial, rfl⟩

theorem Moves.append {o' o'' : Finset Handle} (ha : Moves o o' a) (hb : Moves o' o'' b) : Moves o o'' (a ++ b) := by
  intro hf
  obtain ⟨hfa, hfb⟩ := along_append.mp hf
  obtain ⟨hda, rfl⟩ := ha hfa
  obtain ⟨hdb, rfl⟩ := hb hfb
  exact ⟨along_append.mpr ⟨hda, hdb⟩, openAfter_append⟩

theorem Moves.used {o' : Finset Handle} {x : Handle} (h : x ∈ o) (ht : Moves o o' tr) : Moves o o' (.used x :: tr) :=
  fun ⟨_, hf⟩ => let ⟨hd, ho⟩ := ht hf; ⟨⟨h, hd⟩, ho⟩

theorem Moves.closed {o' : Finset Handle} {x : Handle} (h : x ∈ o) (ht : Moves (o.erase x) o' tr) :
    Moves o o' (.closed x :: tr) :=
  fun ⟨_, hf⟩ => let ⟨hd, ho⟩ := ht hf; ⟨⟨h, hd⟩, ho⟩

/-- The kernel returns `x`; what follows may rely on `x` having been fresh. -/
theorem Moves.opened {o' : Finset Handle} {x : Handle} (ht : x ∉ o → Moves (insert x o) o' tr) :
    Moves o o' (.opened x :: tr) :=
  fun ⟨hx, hf⟩ => let ⟨hd, ho⟩ := ht hx hf; ⟨⟨trivial, hd⟩, ho⟩

/-- A prefix already disciplined, then a trace that moves what it left open. -/
theorem Moves.extend {o₁ o' : Finset Handle} (hd : Disciplined o a) (ho : openAfter o a = o₁) (hm : Moves o₁ o' b)
    (hf : Fresh o (a ++ b)) : Disciplined o (a ++ b) ∧ openAfter o (a ++ b) = o' := by
  subst ho
  obtain ⟨hdb, hob⟩ := hm (along_append.mp hf).2
  exact ⟨along_append.mpr ⟨hd, hdb⟩, openAfter_append.trans hob⟩

theorem restores_nil : Restores [] := fun _ => moves_nil

theorem Restores.append (ha : Restores a) (hb : Restores b) : Restores (a ++ b) :=
  fun o => Moves.append (ha o) (hb o)

theorem Moves.usedN {o' : Finset Handle} {x : Handle} (h : x ∈ o) :
    ∀ n, Moves o o' tr → Moves o o' (List.replicate n (.used x) ++ tr)
  | 0, ht => ht
  | n + 1, ht => Moves.used h (Moves.usedN h n ht)

/-- Open a handle, pass it to `n` calls, close it. -/
theorem restores_opened_usedN_closed (h : Handle) (n : Nat) :
    Restores (.opened h :: (List.replicate n (.used h) ++ [.closed h])) :=
  fun o => Moves.opened fun hh => Moves.usedN (Finset.mem_insert_self h o) n
    (Moves.closed (Finset.mem_insert_self h o) (by rw [Finset.erase_insert hh]; exact moves_nil))

theorem restores_opened_used_closed (h : Handle) : Restores [.opened h, .used h, .closed h] :=
  restores_opened_usedN_closed h 1

theorem restores_opened_closed (h : Handle) : Restores [.opened h, .closed h] :=
  restores_opened_usedN_closed h 0

/-- A call that restores the open set closes every handle value exactly as often as it opens it. -/
theorem count_closed_eq_opened (hr : Restores tr) (hf : Fresh o tr) (h : Handle) :
    tr.count (.closed h) = tr.count (.opened h) := by
  have hb := count_balance (hr o hf).1 hf h
  rw [(hr o hf).2] at hb
  omega

end

/-! ## The NtGetNext… loops

  `NtGetNextProcess(hPrev, …)` and `NtGetNextThread(hQI, hPrev, …)` take the previous handle and
  return the next one, and the loops close the previous handle right after: while a loop runs,
  the open handles are the ones open before it and the handle it holds in `hPrev`. -/

/-- `if (nullptr != hPrev) CloseHandle(hPrev)`. -/
def closeOpt (h : Option Handle) : List HandleEvent := h.toList.map .closed

/-- The open set `o` and the handle the loop holds. -/
def withPrev (prev : Option Handle) (o : Finset Handle) : Finset Handle := prev.elim o fun h => insert h o

section

variable {o o' : Finset Handle} {prev : Option Handle} {x : Handle} {tr : List HandleEvent}

@[simp] theorem closeOpt_none : closeOpt none = [] := rfl
@[simp] theorem closeOpt_some (h : Handle) : closeOpt (some h) = [.closed h] := rfl
@[simp] theorem withPrev_none : withPrev none o = o := rfl
@[simp] theorem withPrev_some (h : Handle) : withPrev (some h) o = insert h o := rfl

theorem mem_withPrev (h : x ∈ o) : x ∈ withPrev prev o := by
  cases prev with
  | none => exact h
  | some _ => exact Finset.mem_insert_of_mem h

/-- The call returning `x` after `hPrev`: `x` was fresh. -/
theorem fresh_next (hf : Fresh o (usedOpt prev ++ .opened x :: tr)) : x ∉ o := by
  cases prev with
  | none => exact hf.1
  | some _ => exact hf.2.1

/-- The call with `hPrev` returning `x`, then `CloseHandle(hPrev)`: `x` takes the previous
    handle's place. -/
theorem Moves.next (hp : ∀ y ∈ prev, y ∉ o) (ht : x ∉ o → Moves (insert x o) o' tr) :
    Moves (withPrev prev o) o' (usedOpt prev ++ .opened x :: (closeOpt prev ++ tr)) := by
  cases prev with
  | none => exact Moves.opened ht
  | some y =>
    simp only [withPrev_some, usedOpt_some, closeOpt_some, List.singleton_append, List.cons_append]
    refine Moves.used (Finset.mem_insert_self y o) (Moves.opened fun hx => ?_)
    rw [Finset.mem_insert, not_or] at hx
    refine Moves.closed (Finset.mem_insert_of_mem (Finset.mem_insert_self y o)) ?_
    rw [Finset.erase_insert_of_ne hx.1, Finset.erase_insert (hp y rfl)]
    exact ht hx.2

/-- The last call, which returns no handle, then `CloseHandle(hPrev)`: the loop leaves open what
    was open before it. -/
theorem moves_last (hp : ∀ y ∈ prev, y ∉ o) : Moves (withPrev prev o) o (usedOpt prev ++ closeOpt prev) := by
  cases prev with
  | none => exact moves_nil
  | some y =>
    simp only [withPrev_some, usedOpt_some, closeOpt_some, List.singleton_append]
    refine Moves.used (Finset.mem_insert_self y o) (Moves.closed (Finset.mem_insert_self y o) ?_)
    rw [Finset.erase_insert (hp y rfl)]
    exact moves_nil

end

end ZombieFinder
