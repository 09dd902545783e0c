import Apidoc.Entity.Names.Capital
import Apidoc.Entity.Names.SmallAToL
import Apidoc.Entity.Names.SmallMToZ
import Apidoc.Text.Basic

namespace Apidoc.Entity.Names

def spell (rows : List (String × List Nat)) : List (Text × Text) :=
  rows.map fun row => (row.1.toList, row.2.map Char.ofNat)

def capitalASpelled : List (Text × Text) := spell capitalA
def capitalBSpelled : List (Text × Text) := spell capitalB
def capitalCSpelled : List (Text × Text) := spell capitalC
def capitalDSpelled : List (Text × Text) := spell capitalD
def capitalESpelled : List (Text × Text) := spell capitalE
def capitalFSpelled : List (Text × Text) := spell capitalF
def capitalGSpelled : List (Text × Text) := spell capitalG
def capitalHSpelled : List (Text × Text) := spell capitalH
def capitalISpelled : List (Text × Text) := spell capitalI
def capitalJSpelled : List (Text × Text) := spell capitalJ
def capitalKSpelled : List (Text × Text) := spell capitalK
def capitalLSpelled : List (Text × Text) := spell capitalL
def capitalMSpelled : List (Text × Text) := spell capitalM
def capitalNSpelled : List (Text × Text) := spell capitalN
def capitalOSpelled : List (Text × Text) := spell capitalO
def capitalPSpelled : List (Text × Text) := spell capitalP
def capitalQSpelled : List (Text × Text) := spell capitalQ
def capitalRSpelled : List (Text × Text) := spell capitalR
def capitalSSpelled : List (Text × Text) := spell capitalS
def capitalTSpelled : List (Text × Text) := spell capitalT
def capitalUSpelled : List (Text × Text) := spell capitalU
def capitalVSpelled : List (Text × Text) := spell capitalV
def capitalWSpelled : List (Text × Text) := spell capitalW
def capitalXSpelled : List (Text × Text) := spell capitalX
def capitalYSpelled : List (Text × Text) := spell capitalY
def capitalZSpelled : List (Text × Text) := spell capitalZ
def smallASpelled : List (Text × Text) := spell smallA
def smallBSpelled : List (Text × Text) := spell smallB
def smallCSpelled : List (Text × Text) := spell smallC
def smallDSpelled : List (Text × Text) := spell smallD
def smallESpelled : List (Text × Text) := spell smallE
def smallFSpelled : List (Text × Text) := spell smallF
def smallGSpelled : List (Text × Text) := spell smallG
def smallHSpelled : List (Text × Text) := spell smallH
def smallISpelled : List (Text × Text) := spell smallI
def smallJSpelled : List (Text × Text) := spell smallJ
def smallKSpelled : List (Text × Text) := spell smallK
def smallLSpelled : List (Text × Text) := spell smallL
def smallMSpelled : List (Text × Text) := spell smallM
def smallNSpelled : List (Text × Text) := spell smallN
def smallOSpelled : List (Text × Text) := spell smallO
def smallPSpelled : List (Text × Text) := spell smallP
def smallQSpelled : List (Text × Text) := spell smallQ
def smallRSpelled : List (Text × Text) := spell smallR
def smallSSpelled : List (Text × Text) := spell smallS
def smallTSpelled : List (Text × Text) := spell smallT
def smallUSpelled : List (Text × Text) := spell smallU
def smallVSpelled : List (Text × Text) := spell smallV
def smallWSpelled : List (Text × Text) := spell smallW
def smallXSpelled : List (Text × Text) := spell smallX
def smallYSpelled : List (Text × Text) := spell smallY
def smallZSpelled : List (Text × Text) := spell smallZ

def startingWith (c : Char) : List (Text × Text) :=
  match c with
  | 'A' => capitalASpelled
  | 'B' => capitalBSpelled
  | 'C' => capitalCSpelled
  | 'D' => capitalDSpelled
  | 'E' => capitalESpelled
  | 'F' => capitalFSpelled
  | 'G' => capitalGSpelled
  | 'H' => capitalHSpelled
  | 'I' => capitalISpelled
  | 'J' => capitalJSpelled
  | 'K' => capitalKSpelled
  | 'L' => capitalLSpelled
  | 'M' => capitalMSpelled
  | 'N' => capitalNSpelled
  | 'O' => capitalOSpelled
  | 'P' => capitalPSpelled
  | 'Q' => capitalQSpelled
  | 'R' => capitalRSpelled
  | 'S' => capitalSSpelled
  | 'T' => capitalTSpelled
  | 'U' => capitalUSpelled
  | 'V' => capitalVSpelled
  | 'W' => capitalWSpelled
  | 'X' => capitalXSpelled
  | 'Y' => capitalYSpelled
  | 'Z' => capitalZSpelled
  | 'a' => smallASpelled
  | 'b' => smallBSpelled
  | 'c' => smallCSpelled
  | 'd' => smallDSpelled
  | 'e' => smallESpelled
  | 'f' => smallFSpelled
  | 'g' => smallGSpelled
  | 'h' => smallHSpelled
  | 'i' => smallISpelled
  | 'j' => smallJSpelled
  | 'k' => smallKSpelled
  | 'l' => smallLSpelled
  | 'm' => smallMSpelled
  | 'n' => smallNSpelled
  | 'o' => smallOSpelled
  | 'p' => smallPSpelled
  | 'q' => smallQSpelled
  | 'r' => smallRSpelled
  | 's' => smallSSpelled
  | 't' => smallTSpelled
  | 'u' => smallUSpelled
  | 'v' => smallVSpelled
  | 'w' => smallWSpelled
  | 'x' => smallXSpelled
  | 'y' => smallYSpelled
  | 'z' => smallZSpelled
  | _ => []

/-- The characters that a name stands for; its semicolon belongs to the name. -/
def find? : Text → Option Text
  | [] => none
  | c :: cs => (startingWith c).lookup (c :: cs)

end Apidoc.Entity.Names
