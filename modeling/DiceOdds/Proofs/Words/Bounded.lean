import DiceOdds.Words

/-!
# Numbers drawn from one to a bound

A word, as a part of all words, is multiplied by the bound; the whole part of the product, counted
from one, is the number drawn. A second word may correct it upwards, but never beyond the bound,
because both words together are still a part of all pairs of words. On the other side, the least
word whose product reaches a number leaves so little over that no second word is taken. So every
number up to the bound is drawn with one word, whatever words were used before.

## Main definitions

* `Words.skip`: the same sequence with more words used.
* `Words.Begins`: the words that come next.

## Main results

* `Draw.oneTo_mem`: only numbers from one to the bound are drawn.
* `Draw.exists_oneTo_eq`: each of them is drawn with a single word.
-/

namespace DiceOdds

namespace Words

/-- The same sequence, of which a number of further words is used. -/
def skip (w : Words) (count : Nat) : Words := { w with used := w.used + count }

theorem skip_skip (w : Words) (m n : Nat) : (w.skip m).skip n = w.skip (m + n) := by
  simp only [skip, Nat.add_assoc]

/-- The words that come next are the given ones. -/
def Begins (w : Words) (script : List UInt64) : Prop :=
  ∀ i x, script[i]? = some x → w.word (w.used + i) = x

theorem begins_fresh (script : List UInt64) : (fresh fun k => script[k]?.getD 0).Begins script := by
  intro i x hx
  simp only [fresh, Nat.zero_add, hx, Option.getD_some]

theorem Begins.left {w : Words} {script script' : List UInt64} (h : w.Begins (script ++ script')) :
    w.Begins script := by
  intro i x hx
  have hi : i < script.length := (List.getElem?_eq_some_iff.1 hx).1
  exact h i x (by rwa [List.getElem?_append_left hi])

theorem Begins.right {w : Words} {script script' : List UInt64} (h : w.Begins (script ++ script')) :
    (w.skip script.length).Begins script' := by
  intro i x hx
  rw [skip, Nat.add_assoc]
  refine h (script.length + i) x ?_
  rwa [List.getElem?_append_right (Nat.le_add_right _ _), Nat.add_sub_cancel_left]

end Words

namespace Draw

/-- The next word times a bound. -/
def product (bound : Outcome) (w : Words) : Nat := (w.word w.used).toNat * bound.toNatClampNeg

variable {bound : Outcome} {w : Words}

theorem product_add_le (bound : Outcome) (w : Words) :
    product bound w + bound.toNatClampNeg ≤ wordCount * bound.toNatClampNeg := by
  have hword : (w.word w.used).toNat + 1 ≤ wordCount := (w.word w.used).toNat_lt
  have hproduct := Nat.mul_le_mul_right bound.toNatClampNeg hword
  rwa [Nat.add_mul, Nat.one_mul] at hproduct

/-- The whole part of the product is below the bound. -/
theorem product_div_lt (h : 1 ≤ bound.toInt) (w : Words) :
    product bound w / wordCount < bound.toNatClampNeg := by
  have hproduct := product_add_le bound w
  have hclamp := bound.toNat_toInt
  exact Nat.div_lt_of_lt_mul (by omega)

/-! ### One word or two -/

/-- One word is enough when little is left over. -/
theorem oneTo_of_le (h : product bound w % wordCount ≤ wordCount - bound.toNatClampNeg) :
    oneTo bound w = (Int64.ofNat (1 + product bound w / wordCount), w.skip 1) := by
  exact congrFun (if_neg (Nat.not_lt.2 h)) (w.skip 1)

/-- Otherwise the whole part of the second product is added to the first product. -/
theorem oneTo_of_lt (h : wordCount - bound.toNatClampNeg < product bound w % wordCount) :
    oneTo bound w =
      (Int64.ofNat (1 + (product bound w + product bound (w.skip 1) / wordCount) / wordCount),
        w.skip 2) := by
  have hcarry : product bound (w.skip 1) / wordCount < wordCount := by
    have hproduct := product_add_le bound (w.skip 1)
    have hbound : bound.toNatClampNeg < wordCount :=
      Nat.lt_trans bound.toNatClampNeg_lt (by decide)
    refine Nat.div_lt_of_lt_mul (Nat.lt_of_le_of_lt (Nat.le_of_add_right_le hproduct) ?_)
    exact Nat.mul_lt_mul_of_pos_left hbound (by decide)
  have hsum : (product bound w + product bound (w.skip 1) / wordCount) / wordCount =
      if product bound w % wordCount + product bound (w.skip 1) / wordCount ≥ wordCount then
        product bound w / wordCount + 1
      else product bound w / wordCount := by
    generalize product bound (w.skip 1) / wordCount = carry at hcarry
    unfold wordCount at hcarry ⊢
    split <;> omega
  rw [hsum]
  exact congrFun (if_pos h) (w.skip 1)

/-- The number drawn is one more than a number below the bound. -/
theorem exists_oneTo_fst_eq (h : 1 ≤ bound.toInt) (w : Words) :
    ∃ k < bound.toNatClampNeg, (oneTo bound w).1 = Int64.ofNat (1 + k) := by
  by_cases hlow : product bound w % wordCount ≤ wordCount - bound.toNatClampNeg
  · exact ⟨_, product_div_lt h w, by rw [oneTo_of_le hlow]⟩
  · refine ⟨_, ?_, by rw [oneTo_of_lt (Nat.not_le.1 hlow)]⟩
    -- Both words together stay below all pairs of words times the bound.
    have hproduct := product_add_le bound w
    have hcarry := product_div_lt h (w.skip 1)
    exact Nat.div_lt_of_lt_mul (by omega)

/-! ### From one to the bound -/

theorem toInt_ofNat_one_add {k : Nat} (h : k < bound.toNatClampNeg) :
    (Int64.ofNat (1 + k)).toInt = 1 + k := by
  have hclamp := bound.toNatClampNeg_lt
  rw [Int64.toInt_ofNat_of_lt (by omega)]
  omega

/-- **Only numbers from one to the bound are drawn.** -/
theorem oneTo_mem (h : 1 ≤ bound.toInt) (w : Words) :
    1 ≤ (oneTo bound w).1.toInt ∧ (oneTo bound w).1.toInt ≤ bound.toInt := by
  obtain ⟨k, hk, heq⟩ := exists_oneTo_fst_eq h w
  have hclamp := bound.toNat_toInt
  rw [heq, toInt_ofNat_one_add hk]
  omega

/-- The least word whose product with a number reaches a number of words leaves less than the former
number over. -/
theorem exists_word_mul {k n : Nat} (hk : k < n) (hn : n ≤ wordCount) :
    ∃ x : UInt64, ∃ low < n, x.toNat * n = k * wordCount + low := by
  -- The quotient is rounded up.
  have hdiv := Nat.div_add_mod (k * wordCount + (n - 1)) n
  have hmod := Nat.mod_lt (k * wordCount + (n - 1)) (Nat.zero_lt_of_lt hk)
  generalize (k * wordCount + (n - 1)) / n = word at hdiv
  generalize (k * wordCount + (n - 1)) % n = rest at hdiv hmod
  have hword : word < wordCount := by
    refine Nat.lt_of_mul_lt_mul_left (a := n) ?_
    have hle := Nat.mul_le_mul_right wordCount (Nat.succ_le_of_lt hk)
    rw [Nat.succ_mul] at hle
    omega
  refine ⟨UInt64.ofNat word, n - 1 - rest, by omega, ?_⟩
  rw [UInt64.toNat_ofNat_of_lt' hword, Nat.mul_comm]
  omega

/-- **Every number from one to the bound is drawn** with one word, whatever was used before. -/
theorem exists_oneTo_eq {n : Outcome} (hlow : 1 ≤ n.toInt) (hhigh : n.toInt ≤ bound.toInt) :
    ∃ x : UInt64, ∀ w : Words, w.word w.used = x → oneTo bound w = (n, w.skip 1) := by
  have hclamp := bound.toNat_toInt
  have hbound := bound.toNatClampNeg_lt
  obtain ⟨k, hk⟩ := Int.eq_ofNat_of_zero_le (Int.sub_nonneg.2 hlow)
  have hkn : k < bound.toNatClampNeg := by omega
  have hcount : bound.toNatClampNeg ≤ wordCount := Nat.le_of_lt (Nat.lt_trans hbound (by decide))
  obtain ⟨x, low, hlt, hx⟩ := exists_word_mul hkn hcount
  refine ⟨x, fun w hw => ?_⟩
  have hproduct : low + wordCount * k = product bound w := by
    rw [product, hw, hx, Nat.add_comm, Nat.mul_comm]
  obtain ⟨hdiv, hmod⟩ := (Nat.div_mod_unique (by decide : 0 < wordCount)).2
    ⟨hproduct, Nat.lt_of_lt_of_le hlt hcount⟩
  have hn : Int64.ofNat (1 + k) = n := Int64.toInt_inj.1 (by rw [toInt_ofNat_one_add hkn]; omega)
  have hle : product bound w % wordCount ≤ wordCount - bound.toNatClampNeg := by
    rw [hmod]
    unfold wordCount
    omega
  rw [oneTo_of_le hle, hdiv, hn]

end Draw

end DiceOdds
