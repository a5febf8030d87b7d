import LivePreview.Text.Lines
import LivePreview.Source.ModuleSyntax
import LivePreview.Source.ExportLine
import LivePreview.Source.ScriptData

/-!
A binding list written over several lines is dropped as a whole; while it is open its lines are
held, and they stay when a line turns up that cannot belong to it.
-/

namespace LivePreview.Source

open LivePreview.Text

structure OpenBlock where
  kind : BlockKind
  held : List Line
  deriving DecidableEq, Repr

structure Stripped where
  text : List Char
  block : Option OpenBlock
  deriving DecidableEq, Repr

def stripOutside (free : Option RootName) (line : Line) : Stripped :=
  match LineRole.ofBody line.body with
  | .declaration => ⟨[], none⟩
  | .opening kind => ⟨[], some ⟨kind, [line]⟩⟩
  | .program => ⟨unexport free line, none⟩

def OpenBlock.strip (free : Option RootName) (block : OpenBlock) (line : Line) : Stripped :=
  if block.kind.closing.accepts line.body then ⟨[], none⟩
  else if ModuleSyntax.bindingNames.accepts line.body then
    ⟨[], some { block with held := block.held ++ [line] }⟩
  else
    let outside := stripOutside free line
    ⟨block.held.flatten ++ outside.text, outside.block⟩

def stripLine (free : Option RootName) (block : Option OpenBlock) (line : Line) : Stripped :=
  match block with
  | none => stripOutside free line
  | some b => b.strip free line

def stripLines (free : Option RootName) (block : Option OpenBlock) : List Line → List Char
  | [] => (block.map fun b => b.held.flatten).getD []
  | line :: rest =>
      let stripped := stripLine free block line
      stripped.text ++ stripLines free stripped.block rest

def stripModuleSyntax (source : List Char) : List Char :=
  stripLines (freeRootName source) none (lines source)

def withoutModuleSyntax (source : String) : String :=
  .ofList (stripModuleSyntax source.toList)

def classicScript (source : String) : String :=
  defuse (withoutModuleSyntax source)

end LivePreview.Source
