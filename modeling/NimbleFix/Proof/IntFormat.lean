import NimbleFix.Codec.FastIntFormat

/-!
# The integer writers give canonical numerals

Every branch of `formatUint32` is the decimal expansion cut into pairs of digits, so each follows
from `decimal_pair`. The sequential loop writes the expansion from its end.
-/

namespace NimbleFix

/-! ## Decimal expansions -/

theorem decimalAux_eq_decimal : ∀ {fuel n : Nat}, n ≤ fuel → decimalAux fuel n = decimal n
  | 0, n, h => by
    obtain rfl := Nat.le_zero.1 h
    rfl
  | fuel + 1, 0, _ => rfl
  | fuel + 1, n + 1, h => by
    unfold decimal decimalAux
    split
    · rfl
    · rw [decimalAux_eq_decimal (show (n + 1) / 10 ≤ fuel by omega),
        decimalAux_eq_decimal (show (n + 1) / 10 ≤ n by omega)]

theorem decimal_of_lt {n : Nat} (h : n < 10) : decimal n = [digitByte n] := by
  cases n with
  | zero => rfl
  | succ n => rw [decimal, decimalAux, if_pos h]

theorem decimal_of_ge {n : Nat} (h : 10 ≤ n) :
    decimal n = decimal (n / 10) ++ [digitByte (n % 10)] := by
  cases n with
  | zero => omega
  | succ n =>
    rw [decimal, decimalAux, if_neg (by omega), decimalAux_eq_decimal (by omega)]

theorem digitPair_eq {i : Nat} (h : i < 100) :
    digitPair i = [digitByte (i / 10), digitByte (i % 10)] := by
  simp [digitPair, buildDigitPairTable, h]

theorem decimal_two {n : Nat} (h10 : 10 ≤ n) (h100 : n < 100) : decimal n = digitPair n := by
  rw [decimal_of_ge h10, decimal_of_lt (show n / 10 < 10 by omega), digitPair_eq h100]
  rfl

theorem decimal_pair {n : Nat} (h : 100 ≤ n) :
    decimal n = decimal (n / 100) ++ digitPair (n % 100) := by
  rw [decimal_of_ge (show 10 ≤ n by omega), decimal_of_ge (show 10 ≤ n / 10 by omega),
    digitPair_eq (Nat.mod_lt _ (by decide)), Nat.div_div_eq_div_mul, List.append_assoc,
    show n / 10 % 10 = n % 100 / 10 by omega, show n % 10 = n % 100 % 10 by omega]
  rfl

theorem reverse_decimalTmp {v : Nat} (h : v ≠ 0) : (decimalTmp v).reverse = decimal v := by
  induction v using Nat.strongRecOn with
  | _ v ih =>
    rw [decimalTmp, if_neg h, List.reverse_cons]
    by_cases hlt : v < 10
    · rw [decimal_of_lt hlt, show v / 10 = 0 by omega, decimalTmp, Nat.mod_eq_of_lt hlt]
      rfl
    · rw [ih (v / 10) (by omega) (by omega), ← decimal_of_ge (by omega)]

theorem digitByte_eq_zero {d : Nat} (hd : d < 10) (h : digitByte d = 48) : d = 0 := by
  revert d
  decide

theorem decimal_head_zero {n : Nat} (h : (decimal n).head? = some 48) : n = 0 := by
  induction n using Nat.strongRecOn with
  | _ n ih =>
    by_cases hlt : n < 10
    · rw [decimal_of_lt hlt] at h
      exact digitByte_eq_zero hlt (Option.some.inj h)
    · have hne : decimal (n / 10) ≠ [] := (decimalAux_reads (Nat.le_refl (n / 10))).1
      rw [decimal_of_ge (by omega), List.head?_append_of_ne_nil _ hne] at h
      have := ih (n / 10) (by omega) h
      omega

/-! ## The writers -/

theorem formatSequential_eq {v : Nat} (h : v ≠ 0) :
    formatSequential v = (decimal v, (decimal v).length) := by
  have hlen : (decimalTmp v).length = (decimal v).length := by
    rw [← reverse_decimalTmp h, List.length_reverse]
  refine Prod.ext ?_ hlen
  rw [← reverse_decimalTmp h]
  apply List.ext_getElem
  · simp [formatSequential]
  · intro i hi _
    have hi : i < (decimalTmp v).length := by simpa [formatSequential] using hi
    simp only [formatSequential, List.getElem_map, List.getElem_range, List.getElem_reverse]
    rw [List.getD_eq_getElem?_getD, List.getElem?_eq_getElem (by omega), Option.getD_some]

theorem formatUint32_eq (value : UInt32) :
    formatUint32 value = (decimal value.toNat, (decimal value.toNat).length) := by
  unfold formatUint32
  generalize value.toNat = v
  dsimp only
  split
  · rw [decimal_of_lt (by omega)]
    rfl
  split
  · rw [decimal_two (by omega) (by omega), digitPair_eq (by omega)]
    rfl
  have hpair := digitPair_eq (Nat.mod_lt v (show 0 < 100 by decide))
  have hdecimal := decimal_pair (show 100 ≤ v by omega)
  split
  · rw [hdecimal, decimal_of_lt (show v / 100 < 10 by omega), hpair]
    rfl
  split
  · rw [hdecimal, decimal_two (by omega) (by omega), digitPair_eq (show v / 100 < 100 by omega),
      hpair]
    rfl
  have hpair' := digitPair_eq (Nat.mod_lt (v / 100) (show 0 < 100 by decide))
  have hdecimal' := decimal_pair (show 100 ≤ v / 100 by omega)
  split
  · rw [hdecimal, hdecimal', decimal_of_lt (show v / 100 / 100 < 10 by omega), hpair, hpair']
    rfl
  split
  · rw [hdecimal, hdecimal', decimal_two (by omega) (by omega),
      digitPair_eq (show v / 100 / 100 < 100 by omega), hpair, hpair']
    rfl
  split
  · have hfour : v % 10000 / 100 = v / 100 % 100 ∧ v % 10000 % 100 = v % 100 := by omega
    rw [hdecimal, hdecimal', show v / 100 / 100 = v / 10000 by omega,
      decimal_pair (show 100 ≤ v / 10000 by omega),
      decimal_of_lt (show v / 10000 / 100 < 10 by omega), hfour.1, hfour.2, hpair, hpair',
      digitPair_eq (Nat.mod_lt _ (by decide))]
    rfl
  · exact formatSequential_eq (by omega)

theorem toInt_cases (value : Int64) :
    value.toUInt64.toNat < 2 ^ 63 ∧ value.toInt = value.toUInt64.toNat ∨
      2 ^ 63 ≤ value.toUInt64.toNat ∧ value.toInt = value.toUInt64.toNat - 2 ^ 64 := by
  have h : value.toInt = if 2 * value.toUInt64.toNat < 2 ^ 64 then
      (value.toUInt64.toNat : Int) else value.toUInt64.toNat - (2 ^ 64 : Nat) :=
    BitVec.toInt_eq_toNat_cond value.toBitVec
  split at h
  · exact .inl ⟨by omega, h⟩
  · exact .inr ⟨by omega, h⟩

/-- The 64-bit magnitude of a negative value, the smallest one included. -/
theorem toNat_magnitude {value : Int64} (h : value.toInt < 0) :
    ((-(value + 1)).toUInt64 + 1).toNat = value.toInt.natAbs := by
  have hlt := value.toUInt64.toNat_lt
  change (-(value.toUInt64 + 1) + 1).toNat = _
  rw [UInt64.toNat_add, UInt64.toNat_neg, UInt64.toNat_add, UInt64.toNat_one, UInt64.size]
  rcases toInt_cases value with ⟨-, hvalue⟩ | ⟨hge, hvalue⟩
  · omega
  · omega

theorem toNat_toUInt32 {u : UInt64} (h : u.toNat ≤ uint32Max) : u.toUInt32.toNat = u.toNat := by
  unfold uint32Max at h
  rw [UInt64.toNat_toUInt32, Nat.mod_eq_of_lt (by omega)]

theorem formatInt64_eq (value : Int64) :
    formatInt64 value = (formatInt value.toInt, (formatInt value.toInt).length) := by
  unfold formatInt64 formatInt
  by_cases hneg : value.toInt < 0
  · have hmagnitude := toNat_magnitude hneg
    rw [if_pos (Int64.lt_iff_toInt_lt.2 hneg), if_pos hneg]
    dsimp only
    split
    · rename_i hsmall
      rw [formatUint32_eq, toNat_toUInt32 hsmall, hmagnitude, afterMinus, List.length_cons,
        Nat.add_comm]
    · rw [hmagnitude, formatSequential_eq (by omega), afterMinus, List.length_cons, Nat.add_comm]
  · have hvalue : value.toUInt64.toNat = value.toInt.natAbs := by
      rcases toInt_cases value with ⟨-, hvalue⟩ | ⟨-, hvalue⟩
      · omega
      · have := value.toUInt64.toNat_lt
        omega
    rw [if_neg (mt Int64.lt_iff_toInt_lt.1 hneg), if_neg hneg]
    split
    · rename_i hsmall
      rw [formatUint32_eq, toNat_toUInt32 (by omega), hvalue]
    · rename_i hlarge
      rw [hvalue, formatSequential_eq (by omega)]

/-- The canonical decimal numeral of a number: a minus sign for a negative one only, and digits
without leading zeros that read as its magnitude. -/
def IsNumeral (n : Int) (text : Bytes) : Prop :=
  ∃ digits, text = (if n < 0 then [45] else []) ++ digits ∧ parseNat digits = some n.natAbs ∧
    (digits.head? = some 48 → digits = [48])

theorem isNumeral_formatInt (n : Int) : IsNumeral n (formatInt n) := by
  refine ⟨decimal n.natAbs, ?_, parseNat_decimal _, fun h => ?_⟩
  · unfold formatInt
    split <;> rfl
  · rw [decimal_head_zero h]
    rfl

/-- Both writers give the canonical numeral of every value and return its length, at most ten and
twenty characters. -/
theorem format_canonical (u : UInt32) (v : Int64) :
    IsNumeral u.toNat (formatUint32 u).1 ∧ (formatUint32 u).2 = (formatUint32 u).1.length ∧
      (formatUint32 u).2 ≤ 10 ∧
      IsNumeral v.toInt (formatInt64 v).1 ∧ (formatInt64 v).2 = (formatInt64 v).1.length ∧
      (formatInt64 v).2 ≤ 20 := by
  have hu := u.toNat_lt
  have hdigits : (decimal v.toInt.natAbs).length ≤ 19 := by
    refine decimal_length (show v.toInt.natAbs < 10 ^ 19 from ?_)
    have := v.toUInt64.toNat_lt
    rcases toInt_cases v with ⟨_, hv⟩ | ⟨_, hv⟩
    · omega
    · omega
  rw [formatUint32_eq, formatInt64_eq]
  refine ⟨formatInt_natCast u.toNat ▸ isNumeral_formatInt u.toNat, rfl,
    decimal_length (show u.toNat < 10 ^ 10 by omega), isNumeral_formatInt v.toInt, rfl, ?_⟩
  unfold formatInt
  split
  · exact Nat.succ_le_succ hdigits
  · exact hdigits.trans (by decide)

theorem parseSigned_formatInt64 (v : Int64) : parseSigned (formatInt64 v).1 = some v.toInt := by
  have hlow := v.le_toInt
  have hhigh := v.toInt_lt
  rw [formatInt64_eq]
  unfold formatInt
  split
  · grind [parseSigned, parseNat_decimal]
  · unfold parseSigned
    split
    · rename_i h
      exact absurd (h ▸ List.mem_cons_self) (notMem_decimal rfl _)
    · grind [parseNat_decimal]

end NimbleFix
