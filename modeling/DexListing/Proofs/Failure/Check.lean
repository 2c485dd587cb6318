import DexListing.Proofs.Container.Decoding

namespace DexListing

inductive Check where
  | magic
  | length
  | extent (t : Table)
  | entry (t : Table) (i : Nat)
  | body (i : Nat)
  deriving DecidableEq

def headerChecks : List Check :=
  [.magic, .length, .extent .strings, .extent .types, .extent .fields, .extent .methods,
    .extent .classes]

def tableChecks (b : Bytes) (t : Table) : List Check :=
  (List.range (tableSize b t)).map (.entry t)

def bodyChecks (b : Bytes) : List Check :=
  (List.range (tableSize b .classes)).map .body

/-- Phase by phase, and inside a phase by index. -/
def checks (b : Bytes) : List Check :=
  headerChecks ++ tableChecks b .strings ++ tableChecks b .types ++ tableChecks b .fields ++
    tableChecks b .methods ++ tableChecks b .classes ++ bodyChecks b

def stringAt (b : Bytes) (i : Nat) : String :=
  match StringTable.textAt b i with
  | .ok t => t.value
  | .error _ => ""

def typeAt (b : Bytes) (i : Nat) : String :=
  stringAt b (word32At b (entryAt b .types i)).toNat

def classNameAt (b : Bytes) (i : Nat) : String :=
  typeAt b (word32At b (entryAt b .classes i)).toNat

def codeOffsetAt (b : Bytes) (i : Nat) : UInt32 :=
  word32At b (entryAt b .classes i + 24)

def indexError (b : Bytes) (t : Table) (i : UInt32) : Option Error :=
  if i.toNat < tableSize b t then none else some ⟨.unresolved t i (tableSize b t), []⟩

def optionalError (b : Bytes) (t : Table) (i : UInt32) : Option Error :=
  if i = noIndex then none else indexError b t i

def fieldError (b : Bytes) (p : Nat) : Option Error :=
  (indexError b .types (word16At b p).toUInt32).or
    ((indexError b .types (word16At b (p + 2)).toUInt32).or
      (indexError b .strings (word32At b (p + 4))))

def methodError (b : Bytes) (p : Nat) : Option Error :=
  (indexError b .types (word16At b p).toUInt32).or (indexError b .strings (word32At b (p + 4)))

def classError (b : Bytes) (p : Nat) : Option Error :=
  ((indexError b .types (word32At b p)).map (Error.within .className)).or
    (((optionalError b .types (word32At b (p + 8))).map (Error.within .superclass)).or
      ((optionalError b .strings (word32At b (p + 16))).map (Error.within .sourceFile)))

def codeError (b : Bytes) (offset : UInt32) : Option Error :=
  if offset = 0 then none
  else if offset.toNat + 16 ≤ b.size then
    if offset.toNat + 16 + 2 * (word32At b (offset.toNat + 12)).toNat ≤ b.size then none
    else some ⟨.outOfBounds (2 * (word32At b (offset.toNat + 12)).toNat) (offset.toNat + 16) b.size,
      [.instructions (offset.toNat + 16)]⟩
  else some ⟨.outOfBounds 16 offset.toNat b.size, [.codeHeader offset]⟩

def Check.error (b : Bytes) : Check → Option Error
  | magic => if StartsWithMagic b then none else some ⟨.badMagic (b.extract 0 4).toList, []⟩
  | length => if headerSize ≤ b.size then none else some ⟨.shortHeader b.size, []⟩
  | extent t =>
      if (extentAt b t).Inside t b then none
      else some ⟨.outOfBounds ((extentAt b t).size.toNat * t.width) (extentAt b t).offset.toNat b.size,
        [.table t (extentAt b t).offset]⟩
  | entry .strings i => failure (StringTable.textAt b i)
  | entry .types i =>
      (indexError b .strings (word32At b (entryAt b .types i))).map (Error.within (.entry .types i))
  | entry .fields i => (fieldError b (entryAt b .fields i)).map (Error.within (.entry .fields i))
  | entry .methods i =>
      (methodError b (entryAt b .methods i)).map (Error.within (.entry .methods i))
  | entry .classes i =>
      (classError b (entryAt b .classes i)).map (Error.within (.entry .classes i))
  | body i => (codeError b (codeOffsetAt b i)).map (Error.within (.body (classNameAt b i)))

theorem failure_check (b : Bytes) (t : Table) :
    failure ((extentAt b t).check t b) = (Check.extent t).error b := by
  rw [Check.error]
  split
  next h => rw [Extent.check_of_inside h]; rfl
  next h => rw [Extent.check_of_not_inside h]; rfl

theorem failure_check_ofBytes (b : Bytes) :
    failure (Header.check (Header.ofBytes b) b) =
      [Check.extent .strings, .extent .types, .extent .fields, .extent .methods,
        .extent .classes].findSome? (Check.error b) := by
  have hx (t : Table) : failure (((Header.ofBytes b).extent t).check t b) =
      (Check.extent t).error b := by
    rw [Header.extent_ofBytes, failure_check]
  simp only [findSome?_cons_or, List.findSome?_nil, Option.or_none, ← hx]
  exact failure_bind fun _ _ => failure_bind fun _ _ => failure_bind fun _ _ =>
    failure_bind fun _ _ => rfl

theorem failure_read (b : Bytes) :
    failure (Header.read b) = headerChecks.findSome? (Check.error b) := by
  rw [headerChecks, findSome?_cons_or, findSome?_cons_or, ← failure_check_ofBytes]
  rw [Header.read]
  split
  next hm =>
    rw [ne_eq, extract_eq_magicStart_iff] at hm
    simp [Check.error, hm, failure, fail]
  next hm =>
    have hm : StartsWithMagic b := extract_eq_magicStart_iff.1 (Classical.not_not.1 hm)
    by_cases hs : headerSize ≤ b.size
    · have hw : slice b 0 headerSize = .ok (window b 0 headerSize) :=
        slice_of_le (by simpa using hs)
      simp [Check.error, hm, hs, hw, failure_map, Header.ofBytes]
    · have hw : slice b 0 headerSize = .error ⟨.outOfBounds headerSize 0 b.size, []⟩ :=
        slice_of_lt (by omega)
      simp [Check.error, hm, hs, hw, failure, fail]

end DexListing
