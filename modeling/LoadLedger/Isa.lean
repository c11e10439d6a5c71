import LoadLedger.Text.Blank
import LoadLedger.TextMap

/-! # Instruction sets

A device lists the application binary interfaces it supports. Each belongs to an instruction set,
and the instruction sets so named are the vocabulary in which loads are recorded.
-/
namespace LoadLedger

abbrev Isa := Text

abbrev Vocabulary := TextSet

structure UnsupportedAbi where
  abi : Text
  deriving DecidableEq

def UnsupportedAbi.message (error : UnsupportedAbi) : Text := "Unsupported ABI: " ++ error.abi

namespace Isa

def byAbi : List (Text × Isa) :=
  [("armeabi", "arm"), ("armeabi-v7a", "arm"), ("arm64-v8a", "arm64"), ("x86", "x86"),
   ("x86_64", "x86_64"), ("mips", "mips"), ("mips64", "mips64"), ("riscv64", "riscv64")]

/-- The instruction set of an interface; blanks around its name do not count. -/
def ofAbi (abi : Text) : Except UnsupportedAbi Isa :=
  match byAbi.lookup abi.strip with
  | some isa => .ok isa
  | none => .error ⟨abi⟩

end Isa

/-- The instruction sets of a list of interfaces. The first unknown interface is reported. -/
def Vocabulary.ofAbis (abis : List Text) : Except UnsupportedAbi Vocabulary :=
  (abis.mapM Isa.ofAbi).map TextSet.ofList

end LoadLedger
