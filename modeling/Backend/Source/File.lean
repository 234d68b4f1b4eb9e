import Backend.Source.Span
import Backend.Text.Shown

/-! Source files and places in them. A file is known by its path: two files of one path are the same file,
    whatever they hold. -/

namespace Backend

/-- A source file. -/
structure SourceFile where
  path : String
  contents : String
deriving Repr

namespace SourceFile

instance : BEq SourceFile := ⟨fun a b => a.path == b.path⟩

/-- The text of a span; `none` if an end of the span is no place to cut the contents at. -/
def text? (file : SourceFile) (span : Span) : Option String :=
  (Text.slice file.contents.toList span.start span.stop).map String.ofList

/-- The files without repetitions, each at its first place. -/
def distinct (files : List SourceFile) : List SourceFile := files.eraseDups

/-- The file as it is described. -/
def described (file : SourceFile) : String := "SourceFile(" ++ Text.quoted file.path ++ ")"

end SourceFile

/-- A span of a file. -/
structure Location where
  file : SourceFile
  span : Span
deriving Repr

namespace Location

instance : BEq Location := ⟨fun a b => a.file == b.file && a.span == b.span⟩

/-- The location as it is described. -/
def described (l : Location) : String :=
  "AbsoluteSpan \x7b source_file: " ++ l.file.described ++ ", span: Span \x7b start: Offset(" ++
    l.span.start.repr ++ "), end: Offset(" ++ l.span.stop.repr ++ ") \x7d \x7d"

end Location
end Backend
