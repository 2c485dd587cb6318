namespace DexListing.Text.Lossy

inductive State where
  | start
  | inside (missing : Nat) (low high : UInt8) (code : Nat)
  deriving DecidableEq

def replacement : Char := '\uFFFD'

def lead (x : UInt8) : List Char × State :=
  if x < 0x80 then ([Char.ofNat x.toNat], .start)
  else if x < 0xC2 then ([replacement], .start)
  else if x < 0xE0 then ([], .inside 1 0x80 0xBF (x.toNat - 0xC0))
  else if x < 0xF0 then
    ([], .inside 2 (if x = 0xE0 then 0xA0 else 0x80) (if x = 0xED then 0x9F else 0xBF)
      (x.toNat - 0xE0))
  else if x < 0xF5 then
    ([], .inside 3 (if x = 0xF0 then 0x90 else 0x80) (if x = 0xF4 then 0x8F else 0xBF)
      (x.toNat - 0xF0))
  else ([replacement], .start)

def step : State → UInt8 → List Char × State
  | .start, x => lead x
  | .inside missing low high code, x =>
    if low ≤ x && x ≤ high then
      let code := code * 64 + (x.toNat - 0x80)
      if missing ≤ 1 then ([Char.ofNat code], .start)
      else ([], .inside (missing - 1) 0x80 0xBF code)
    else (replacement :: (lead x).1, (lead x).2)

def run : State → List UInt8 → List Char
  | .start, [] => []
  | .inside _ _ _ _, [] => [replacement]
  | state, x :: rest => (step state x).1 ++ run (step state x).2 rest

def decode (bytes : List UInt8) : List Char :=
  run .start bytes

end DexListing.Text.Lossy
