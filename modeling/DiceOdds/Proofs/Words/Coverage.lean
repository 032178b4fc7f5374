import DiceOdds.Proofs.Words.Bounded

/-!
# What can be drawn

A draw covers a kind of values if it gives no others, whatever the words are, and gives each of them
for some words, whatever words were used before. The words of draws made one after the other stand
one after the other, so what they cover together follows from what each of them covers, also when a
later draw depends on the values before it.

The draw of a number below a bound passes over the words that would favour some of the numbers, and
does not end if nothing else comes. What it gives is known for the words with which it ends.

## Main definitions

* `Draw.Covers`: a draw gives exactly the values of a kind.
* `Draw.Accepts`, `Draw.Ends`: the words that a number below a bound is drawn from, and that one of
  them comes.

## Main results

* `Draw.Covers.bind`: draws made one after the other.
* `Draw.covers_oneTo`, `Draw.covers_trueOnceIn`: a number up to a bound, and something that happens
  once in a number of times.
* `Draw.below_lt`, `Draw.exists_below_eq`: a draw that ends gives a number below a bound, and each
  of these numbers is drawn.
-/

namespace DiceOdds

namespace Draw

variable {α β : Type}

/-- A draw gives exactly the values of a kind. -/
structure Covers (d : Draw α) (P : α → Prop) : Prop where
  sound (w : Words) : P (d w).1
  complete {a : α} (h : P a) :
    ∃ script, ∀ w : Words, w.Begins script → d w = (a, w.skip script.length)

/-! ### Draws made of draws -/

theorem covers_pure (a : α) : (pure a : Draw α).Covers (· = a) where
  sound _ := rfl
  complete := by
    rintro _ rfl
    exact ⟨[], fun _ _ => rfl⟩

/-- **One draw after the other** covers what the second one covers behind the values of the first
one. -/
theorem Covers.bind {d : Draw α} {f : α → Draw β} {P : α → Prop} {Q : α → β → Prop}
    (hd : d.Covers P) (hf : ∀ a, P a → (f a).Covers (Q a)) :
    (d >>= f).Covers fun b => ∃ a, P a ∧ Q a b where
  sound w := ⟨(d w).1, hd.sound w, (hf _ (hd.sound w)).sound (d w).2⟩
  complete := by
    rintro b ⟨a, ha, hb⟩
    obtain ⟨script, hscript⟩ := hd.complete ha
    obtain ⟨script', hscript'⟩ := (hf a ha).complete hb
    refine ⟨script ++ script', fun w hw => ?_⟩
    show f (d w).1 (d w).2 = _
    rw [hscript w hw.left, hscript' _ hw.right, Words.skip_skip, List.length_append]

/-- A choice between two draws. -/
theorem Covers.ite {d d' : Draw α} {P P' : α → Prop} (h : d.Covers P) (b : Bool)
    (h' : d'.Covers P') : (if b then d else d').Covers fun a => if b then P a else P' a := by
  cases b with
  | true => exact h
  | false => exact h'

theorem Covers.congr {d : Draw α} {P Q : α → Prop} (h : d.Covers P) (hiff : ∀ a, P a ↔ Q a) :
    d.Covers Q where
  sound w := (hiff _).1 (h.sound w)
  complete ha := h.complete ((hiff _).2 ha)

/-! ### Single draws -/

theorem covers_word : word.Covers fun _ => True where
  sound _ := trivial
  complete {x} _ := by
    refine ⟨[x], fun w hw => ?_⟩
    rw [word, show w.word w.used = x from hw 0 x rfl]
    rfl

/-- What is computed from one word covers its results. -/
theorem covers_word_map (f : UInt64 → α) :
    (do return f (← word) : Draw α).Covers fun a => ∃ x, f x = a :=
  (covers_word.bind fun x _ => covers_pure (f x)).congr fun a => by
    simp only [true_and, eq_comm]

theorem covers_oneTo {bound : Outcome} (h : 1 ≤ bound.toInt) :
    (oneTo bound).Covers fun n => 1 ≤ n.toInt ∧ n.toInt ≤ bound.toInt where
  sound := oneTo_mem h
  complete := by
    rintro n ⟨hlow, hhigh⟩
    obtain ⟨x, hx⟩ := exists_oneTo_eq hlow hhigh
    exact ⟨[x], fun w hw => hx w (hw 0 x rfl)⟩

/-- What happens once in several times can happen or not. -/
theorem covers_trueOnceIn {parts : Nat} (h : 2 ≤ parts) (hle : parts ≤ wordCount) :
    (trueOnceIn parts).Covers fun _ => True := by
  refine (covers_word_map fun x => decide (x.toNat < wordCount / parts)).congr fun b => ?_
  simp only [iff_true]
  cases b with
  | true =>
    -- No word is less than zero.
    have hpos : 0 < wordCount / parts := Nat.div_pos hle (by omega)
    exact ⟨0, decide_eq_true hpos⟩
  | false =>
    have hhalf : wordCount / parts ≤ wordCount / 2 := Nat.div_le_div_left h (by decide)
    have hlast : wordCount / 2 ≤ (18446744073709551615 : UInt64).toNat := by decide
    exact ⟨18446744073709551615, decide_eq_false (Nat.not_lt.2 (Nat.le_trans hhalf hlast))⟩

/-! ### Numbers below a bound -/

/-- A word from which a number below the bound is drawn. The other ones are passed over. -/
def Accepts (bound : Nat) (x : UInt64) : Prop :=
  (wordCount - bound) % bound ≤ x.toNat * bound % wordCount

/-- A number below the bound is drawn from one of the words that come next. A draw that passes over
all of them does not end. -/
def Ends (bound : Nat) (w : Words) : Prop := ∃ k, Accepts bound (w.word (w.used + k))

variable {bound : Nat} {w : Words}

/-- The first attempt decides unless it fails; behind a failed one everything starts again. -/
theorem below_eq (bound : Nat) (w : Words) :
    below bound w =
      match attempt bound w with
      | (.inl _, w') => below bound w'
      | (.inr n, w') => (n, w') := by
  have hbody : below bound = repeatM.body (fun _ => attempt bound) (fun _ => below bound) () :=
    repeatM_eq_of_monadTail ()
  refine (congrFun hbody w).trans ?_
  show StateT.bind (attempt bound) _ w = _
  rw [StateT.bind]
  rcases attempt bound w with ⟨_ | n, w'⟩ <;> rfl

theorem below_of_accepts (h : Accepts bound (w.word w.used)) :
    below bound w = ((w.word w.used).toNat * bound / wordCount, w.skip 1) := by
  have hattempt : attempt bound w =
      (.inr ((w.word w.used).toNat * bound / wordCount), w.skip 1) :=
    congrArg (·, w.skip 1) (if_neg (Nat.not_lt.2 h))
  rw [below_eq, hattempt]

theorem below_of_not_accepts (h : ¬ Accepts bound (w.word w.used)) :
    below bound w = below bound (w.skip 1) := by
  have hattempt : attempt bound w = (.inl (), w.skip 1) :=
    congrArg (·, w.skip 1) (if_pos (Nat.not_le.1 h))
  rw [below_eq, hattempt]

theorem below_lt_of_accepts (h : 0 < bound) (haccepts : Accepts bound (w.word w.used)) :
    (below bound w).1 < bound := by
  rw [below_of_accepts haccepts]
  exact Nat.div_lt_of_lt_mul (Nat.mul_lt_mul_of_pos_right (w.word w.used).toNat_lt h)

/-- However many words are passed over, the number drawn in the end is below the bound. -/
theorem below_lt (h : 0 < bound) (hends : Ends bound w) : (below bound w).1 < bound := by
  obtain ⟨k, hk⟩ := hends
  induction k generalizing w with
  | zero => exact below_lt_of_accepts h hk
  | succ k ih =>
    by_cases hnext : Accepts bound (w.word w.used)
    · exact below_lt_of_accepts h hnext
    · rw [below_of_not_accepts hnext]
      refine ih ?_
      rwa [Words.skip, Nat.add_assoc, Nat.add_comm 1]

/-- **Every number below the bound is drawn** with one word, whatever was used before. -/
theorem exists_below_eq {n : Nat} (h : n < bound) (hbound : 2 * bound ≤ wordCount) :
    ∃ x : UInt64, ∀ w : Words, w.word w.used = x → below bound w = (n, w.skip 1) := by
  obtain ⟨x, low, hlow, hx⟩ := exists_word_mul h (by omega)
  -- The word behind the least one that reaches the number leaves at least the bound over.
  have hproduct : low + bound + wordCount * n = (x.toNat + 1) * bound := by
    rw [Nat.add_mul, hx, Nat.one_mul, Nat.mul_comm wordCount]
    omega
  have hword : x.toNat + 1 < wordCount := by
    refine Nat.lt_of_mul_lt_mul_right (a := bound) ?_
    have hle := Nat.mul_le_mul_left wordCount (Nat.succ_le_of_lt h)
    rw [Nat.mul_succ] at hle
    omega
  refine ⟨UInt64.ofNat (x.toNat + 1), fun w hw => ?_⟩
  obtain ⟨hdiv, hmod⟩ := (Nat.div_mod_unique (by decide : 0 < wordCount)).2
    ⟨hproduct, (by omega : low + bound < wordCount)⟩
  rw [← UInt64.toNat_ofNat_of_lt' hword, ← hw] at hdiv hmod
  have haccepts : Accepts bound (w.word w.used) := by
    have hrest := Nat.mod_lt (wordCount - bound) (Nat.zero_lt_of_lt h)
    rw [Accepts, hmod]
    omega
  rw [below_of_accepts haccepts, hdiv]

end Draw

end DiceOdds
