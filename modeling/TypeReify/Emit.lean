import TypeReify.Marker.Reifier
import TypeReify.Program
import TypeReify.Syntax.Print

/-!
# Emitting a program

All files are checked together; then every file that is not a declaration file has its types
reified and is printed, in the order given.

Model of `emit_program` and `emit_program_with_config_file`, whose answers are lists of
`EmittedFile`.

Results:
* `fileNames_emit`: exactly the files with code are emitted.
* `ofFile_mem_emit`: each of them is emitted as it is rewritten.

Out of scope: the spans and counts in the log.
-/

namespace TypeReify

open Syntax (SourceFile)

/-- The printed output of one file. -/
structure Emitted where
  fileName : String
  text : String
  deriving DecidableEq, Repr

namespace Emitted

/-- A file as it is printed. -/
def ofFile (f : SourceFile) : Emitted := ⟨f.fileName, f.text⟩

end Emitted

/-- The files a program is emitted as. -/
def emit (disk : Disk) (settings : Settings) (options : CheckOptions) (files : List SourceFile) :
    List Emitted :=
  let reifier := Reifier.ofSettings (Program.ofFiles options files).oracle disk settings
  (files.filter (!·.isDeclarationFile)).map fun f => .ofFile (reifier.transform f)

/-- The files a program is emitted as, by the settings in a file. -/
def emitWithFile (disk : Disk) (path : String) (options : CheckOptions) (files : List SourceFile) :
    Except SettingsError (List Emitted) := do
  return emit disk (← Settings.ofFile disk path) options files

theorem fileNames_emit (disk : Disk) (settings : Settings) (options : CheckOptions)
    (files : List SourceFile) :
    (emit disk settings options files).map (·.fileName) =
      (files.filter (!·.isDeclarationFile)).map (·.fileName) := by
  simp only [emit, List.map_map]
  rfl

/-- A file with code is emitted as it is rewritten. -/
theorem ofFile_mem_emit (disk : Disk) (settings : Settings) (options : CheckOptions)
    {files : List SourceFile} {f : SourceFile} (hf : f ∈ files)
    (hcode : f.isDeclarationFile = false) :
    Emitted.ofFile ((Reifier.ofSettings (Program.ofFiles options files).oracle disk
      settings).transform
      f) ∈ emit disk settings options files :=
  List.mem_map_of_mem (List.mem_filter.2 ⟨hf, by simp [hcode]⟩)

end TypeReify
