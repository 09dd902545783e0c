namespace Apidoc.Text

/-- Every `step`th code point from `first` to `last` moves by `shift`. -/
structure CaseRun where
  first : Nat
  last : Nat
  step : Nat
  shift : Int

def CaseRun.covers (run : CaseRun) (n : Nat) : Bool :=
  decide (run.first ≤ n ∧ n ≤ run.last ∧ (n - run.first) % run.step = 0)

/-- The image under the first run that covers the character, else the character itself. -/
def shiftCase : List CaseRun → Char → Char
  | [], c => c
  | run :: rest, c =>
    if run.covers c.toNat then Char.ofNat ((c.toNat : Int) + run.shift).toNat
    else shiftCase rest c

end Apidoc.Text
