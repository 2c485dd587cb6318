namespace DexListing

def hex (n : Nat) : String :=
  String.ofList (Nat.toDigits 16 n)

def hexByte (x : UInt8) : String :=
  String.ofList [Nat.digitChar (x.toNat / 16), Nat.digitChar (x.toNat % 16)]

theorem digitChar_inj_of_lt :
    ∀ m < 16, ∀ n < 16, Nat.digitChar m = Nat.digitChar n → m = n := by
  decide

theorem hexByte_injective {x y : UInt8} (h : hexByte x = hexByte y) : x = y := by
  rw [hexByte, hexByte, String.ofList_inj] at h
  obtain ⟨hq, hr, -⟩ : _ ∧ _ ∧ _ := by simpa only [List.cons.injEq] using h
  have hx := x.toNat_lt
  have hy := y.toNat_lt
  have hq := digitChar_inj_of_lt _ (by omega) _ (by omega) hq
  have hr := digitChar_inj_of_lt _ (by omega) _ (by omega) hr
  exact UInt8.toNat_inj.1 (by omega)

theorem exists_digit_of_mem_hex {n : Nat} {c : Char} (h : c ∈ (hex n).toList) :
    ∃ d < 16, Nat.digitChar d = c := by
  rw [hex, String.toList_ofList] at h
  induction n using Nat.strongRecOn with
  | ind n ih =>
      by_cases hn : n < 16
      · rw [Nat.toDigits_of_lt_base hn, List.mem_singleton] at h
        exact ⟨n, hn, h.symm⟩
      · rw [Nat.toDigits_of_base_le (by decide) (Nat.not_lt.1 hn), List.mem_append,
          List.mem_singleton] at h
        rcases h with h | h
        · exact ih (n / 16) (by omega) h
        · exact ⟨n % 16, by omega, h.symm⟩

def digitValue (c : Char) : Nat :=
  if c.isDigit then c.toNat - '0'.toNat else c.toNat - 'a'.toNat + 10

def hexValue (s : String) : Nat :=
  s.toList.foldl (fun v c => 16 * v + digitValue c) 0

theorem digitValue_digitChar : ∀ d < 16, digitValue (Nat.digitChar d) = d := by
  decide

theorem hexValue_hex (n : Nat) : hexValue (hex n) = n := by
  rw [hexValue, hex, String.toList_ofList]
  induction n using Nat.strongRecOn with
  | ind n ih =>
      by_cases hn : n < 16
      · rw [Nat.toDigits_of_lt_base hn, List.foldl_cons, List.foldl_nil, digitValue_digitChar n hn]
        omega
      · rw [Nat.toDigits_of_base_le (by decide) (Nat.not_lt.1 hn), List.foldl_append,
          ih (n / 16) (by omega), List.foldl_cons, List.foldl_nil,
          digitValue_digitChar (n % 16) (by omega)]
        omega

theorem hex_injective {m n : Nat} (h : hex m = hex n) : m = n := by
  rw [← hexValue_hex m, h, hexValue_hex]

def hexList (xs : List UInt8) : String :=
  "[" ++ ", ".intercalate (xs.map hexByte) ++ "]"

end DexListing
