import JingOS.Keyboard.Tracking

/-!
# Keys that repeat

A key that is held down sends its make code again and again. For shift, control and alt that says
what the decoder knows already. Caps lock is turned over by every make code, so it comes out of a
long press as it went in or the other way round, by the number of repeats.

* `tracked_repeat` — the decoder after the repeats of a held key;
* `repeat_undisturbed_iff` — which repeats nobody notices.
-/

namespace JingOS.Keyboard

/-- The make code of a key, again and again. -/
def repeats (key : Key) (count : ℕ) : List Transition := List.replicate count ⟨key, true⟩

/-- Repeats of the key, put in between, change neither the events of what follows nor the decoder
at the end. -/
def Undisturbed (past rest : List Transition) (key : Key) (count : ℕ) : Prop :=
  events (decoder.run .new (encodeAll (past ++ repeats key count))) (encodeAll rest) =
      events (decoder.run .new (encodeAll past)) (encodeAll rest) ∧
    decoder.run .new (encodeAll (past ++ repeats key count ++ rest)) =
      decoder.run .new (encodeAll (past ++ rest))

/-! ## The keyboard and the repeats -/

section

variable {past : List Transition} {key : Key}

theorem held_repeat (h : held past key = true) (other : Key) :
    held (past ++ [⟨key, true⟩]) other = held past other := by
  rw [held_concat]
  by_cases hkey : key = other
  · rw [if_pos hkey, ← hkey, h]
  · rw [if_neg hkey]

/-- A make code of a held key moves no flag but that of caps lock. -/
theorem tracked_repeat_one (h : held past key = true) :
    tracked (past ++ [⟨key, true⟩]) =
      { tracked past with capsLock := capsOn past ^^ decide (key = capsLockKey) } := by
  unfold tracked
  simp only [held_repeat h, capsOn_concat]
  by_cases hkey : key = capsLockKey
  · simp [hkey]
  · simp [hkey]

theorem repeats_succ (key : Key) (count : ℕ) :
    repeats key (count + 1) = ⟨key, true⟩ :: repeats key count := rfl

/-- So do any number of them, by their parity. -/
theorem tracked_repeat (h : held past key = true) (count : ℕ) :
    tracked (past ++ repeats key count) = { tracked past with
      capsLock := capsOn past ^^ (decide (key = capsLockKey) && count % 2 == 1) } := by
  induction count generalizing past with
  | zero => simp [repeats, tracked]
  | succ count ih =>
    have hheld : held (past ++ [⟨key, true⟩]) key = true := by rw [held_repeat h, h]
    have hcaps : capsOn (past ++ [⟨key, true⟩]) = (capsOn past ^^ decide (key = capsLockKey)) :=
      congrArg KeyboardDecoder.capsLock (tracked_repeat_one h)
    rw [repeats_succ, ← List.singleton_append, ← List.append_assoc, ih hheld,
      tracked_repeat_one h, hcaps]
    rcases Nat.mod_two_eq_zero_or_one count with heven | hodd
    · simp [Nat.add_mod, heven]
    · simp [Nat.add_mod, hodd]

/-- Caps lock is on after an odd number of presses, wherever they stand. -/
theorem capsOn_repeat (past rest : List Transition) (count : ℕ) :
    capsOn (past ++ repeats capsLockKey count ++ rest) =
      (capsOn (past ++ rest) ^^ (count % 2 == 1)) := by
  have hcount : (repeats capsLockKey count).countP
      (fun t => t.key = capsLockKey && t.down) = count := by
    unfold repeats
    rw [List.countP_replicate, if_pos (by simp)]
  unfold capsOn
  rw [List.countP_append, List.countP_append, List.countP_append, hcount]
  generalize past.countP _ = before
  generalize rest.countP _ = behind
  rcases Nat.mod_two_eq_zero_or_one count with heven | hodd
  · have hsame : (before + count + behind) % 2 = (before + behind) % 2 := by omega
    simp [heven, hsame]
  · have hother : (before + count + behind) % 2 = 1 - (before + behind) % 2 := by omega
    rcases Nat.mod_two_eq_zero_or_one (before + behind) with hzero | hone
    · simp [hodd, hother, hzero]
    · simp [hodd, hother, hone]

/-- **Repeats.** At a point where a key is held down, further make codes of it are not noticed if
and only if the key is not caps lock or they are even in number. -/
theorem repeat_undisturbed_iff (h : held past key = true) (rest : List Transition) (count : ℕ) :
    Undisturbed past rest key count ↔ key ≠ capsLockKey ∨ count % 2 = 0 := by
  have hrun : ∀ ts, decoder.run .new (encodeAll ts) = tracked ts := fun ts => run_encodeAll ts []
  unfold Undisturbed
  rw [hrun, hrun, hrun, hrun]
  constructor
  · rintro ⟨_, hend⟩
    by_contra hnot
    rw [not_or, not_not] at hnot
    rcases hnot with ⟨rfl, hodd⟩
    -- the last state of caps lock tells an odd number of repeats
    have hcaps : capsOn (past ++ repeats capsLockKey count ++ rest) = capsOn (past ++ rest) :=
      congrArg KeyboardDecoder.capsLock hend
    have hone : (count % 2 == 1) = true := by
      rw [beq_iff_eq]
      omega
    rw [capsOn_repeat, hone] at hcaps
    simp at hcaps
  · intro hquiet
    have hsame : tracked (past ++ repeats key count) = tracked past := by
      have hflag : (decide (key = capsLockKey) && count % 2 == 1) = false := by
        rcases hquiet with hkey | heven
        · simp [hkey]
        · simp [heven]
      rw [tracked_repeat h, hflag, Bool.xor_false]
      rfl
    refine ⟨by rw [hsame], ?_⟩
    rw [← run_encodeAll rest (past ++ repeats key count), ← run_encodeAll rest past, hsame]

end

/-- A control key on the right that repeats three times while `c` is pressed. -/
theorem repeat_undisturbed_rightCtrl :
    held [⟨rightCtrlKey, true⟩] rightCtrlKey = true ∧
      Undisturbed [⟨rightCtrlKey, true⟩] [⟨⟨false, 0x2E, by decide, by decide⟩, true⟩] rightCtrlKey 3 :=
  ⟨by decide, (repeat_undisturbed_iff (by decide) _ 3).mpr (.inl (by decide))⟩

/-- Caps lock with one repeat: the `a` that follows is small, and the flag is off at the end. -/
theorem caps_lock_repeat_noticed :
    let past : List Transition := [⟨capsLockKey, true⟩]
    let rest : List Transition := [⟨⟨false, 0x1E, by decide, by decide⟩, true⟩]
    held past capsLockKey = true ∧
      events (decoder.run .new (encodeAll past)) (encodeAll rest) = [.char 'A'] ∧
      events (decoder.run .new (encodeAll (past ++ repeats capsLockKey 1))) (encodeAll rest) =
        [.char 'a'] ∧
      ¬ Undisturbed past rest capsLockKey 1 := by
  intro past rest
  refine ⟨by decide, by decide, by decide, ?_⟩
  rintro ⟨hevents, _⟩
  revert hevents
  decide

end JingOS.Keyboard
