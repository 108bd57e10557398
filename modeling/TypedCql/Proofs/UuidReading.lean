import TypedCql.Proofs.Literals

/-!
# Identifiers read back from their text

The text of an identifier is its digits in five groups; taken apart at the hyphens and put together
again, the digits have the value of the identifier.
-/

namespace TypedCql

namespace Uuid

theorem digitValue?_digitChar : ∀ n < 16, digitValue? (Nat.digitChar n) = some n := by
  decide

/-- The first digits of a number to base sixteen make up its quotient by what the others can hold. -/
theorem foldlM_digits (n : Nat) (hn : n < 16 ^ 32) : ∀ k ≤ 32,
    ((List.range k).map fun i => Nat.digitChar (n / Nat.pow 16 (31 - i) % 16)).foldlM
      (fun m c => (digitValue? c).map (m * 16 + ·)) 0 = some (n / 16 ^ (32 - k)) := by
  intro k
  induction k with
  | zero =>
      intro _
      show some 0 = _
      rw [Nat.div_eq_of_lt hn]
  | succ k ih =>
      intro hk
      have hdigit : n / 16 ^ (31 - k) % 16 < 16 := Nat.mod_lt _ (by decide)
      have hquotient : n / 16 ^ (32 - k) = n / 16 ^ (31 - k) / 16 := by
        rw [Nat.div_div_eq_div_mul, ← Nat.pow_succ, show (31 - k).succ = 32 - k by omega]
      rw [List.range_succ, List.map_append, List.foldlM_append, ih (by omega)]
      simp only [List.map_cons, List.map_nil, List.foldlM_cons, List.foldlM_nil, Nat.pow_eq]
      rw [digitValue?_digitChar _ hdigit, hquotient, show 32 - (k + 1) = 31 - k by omega]
      simp only [Option.map_some, Option.bind_eq_bind, Option.bind_some, Option.pure_def,
        Option.some.injEq]
      omega

theorem ofDigits?_digits (u : Uuid) : ofDigits? u.digits = some u := by
  have hlt : u.bits.toNat < 16 ^ 32 := u.bits.isLt
  have hvalue := foldlM_digits u.bits.toNat hlt 32 (Nat.le_refl 32)
  rw [ofDigits?, if_pos (length_digits u), digits, hvalue]
  simp

/-- Groups between hyphens are joined, and the hyphens left out. -/
theorem ofGroups?_hyphens {a b c d e : List Char} (ha : a.length = 8) (hb : b.length = 4)
    (hc : c.length = 4) (hd : d.length = 4) (he : e.length = 12) :
    ofGroups? (a ++ '-' :: b ++ '-' :: c ++ '-' :: d ++ '-' :: e) =
      ofDigits? (a ++ b ++ c ++ d ++ e) := by
  simp [ofGroups?, List.drop_append, List.getElem?_append, List.drop_eq_nil_of_le, ha, hb, hc, hd,
    he]

/-- The five groups make up the digits. -/
theorem groups_append (ds : List Char) :
    ds.take 8 ++ (ds.drop 8).take 4 ++ (ds.drop 12).take 4 ++ (ds.drop 16).take 4 ++ ds.drop 20 =
      ds := by
  have hgroup : ∀ n, (ds.drop n).take 4 ++ ds.drop (n + 4) = ds.drop n := by
    intro n
    rw [← List.drop_drop, List.take_append_drop]
  rw [List.append_assoc, List.append_assoc, List.append_assoc, hgroup 16, hgroup 12, hgroup 8,
    List.take_append_drop]

theorem ofText?_text (u : Uuid) : ofText? u.text = some u := by
  have hdigits := length_digits u
  have hlength : u.text.toList.length = 36 := by
    simp [text, hdigits]
  simp only [ofText?]
  rw [if_neg (by omega), if_pos hlength, text, String.toList_ofList,
    ofGroups?_hyphens (by simp [hdigits]) (by simp [hdigits]) (by simp [hdigits]) (by simp [hdigits])
      (by simp [hdigits]), groups_append, ofDigits?_digits]

end Uuid

end TypedCql
