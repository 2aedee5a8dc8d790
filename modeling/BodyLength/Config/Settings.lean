import BodyLength.Color
import BodyLength.Config.Basic
import BodyLength.Files.Collect
import BodyLength.Glob.Language
import BodyLength.Report.Selection
import BodyLength.Scan.Basic
/-!
# Settings

A valid configuration is resolved into `Settings`, with defaults for what it leaves open and
its globs compiled. A configuration is refused for the first thing that is wrong in it; a
color that is none does not count as wrong, but is replaced and warned of.
-/

namespace BodyLength

structure Settings where
  /-- With globs here, a file must match one of them. -/
  includes : Option (List Glob)
  excludes : List Glob
  /-- The extensions of source files, in lower case. -/
  extensions : List (List Char)
  scan : ScanOptions
  palette : Palette
  warningsOnly : Bool
  minLines : Option UInt64
  top : Option UInt64
  /-- Where the configuration was loaded from. -/
  source : Option FilePath

namespace Settings

/-- What is not scanned unless the configuration says what is not. -/
def defaultExcludes : List String :=
  ["**/node_modules/**", "**/vendor/**", "**/third_party/**", "**/target/**", "**/dist/**",
   "**/build/**", "**/*.min.js"]

/-- The extensions of languages that put function bodies in braces. -/
def defaultExtensions : List String :=
  ["c", "h", "cc", "cpp", "cxx", "hh", "hpp", "hxx", "m", "mm", "cs", "java", "kt", "kts",
   "scala", "groovy", "go", "rs", "swift", "dart", "js", "mjs", "cjs", "jsx", "ts", "mts", "cts",
   "tsx", "php"]

/-- Which files are scanned. The globs are matched against the path as it is shown. -/
def filter (s : Settings) : FileFilter where
  extensions := s.extensions
  excludes path := Glob.matchAny s.excludes (bytes (shownText path))
  includes := s.includes.map fun globs path => Glob.matchAny globs (bytes (shownText path))

end Settings

namespace Config

/-- An extension as it is compared: without dots in front, in lower case. -/
def trimDots (ext : String) : List Char := ext.toList.dropWhile (· == '.')

def normalExtension (ext : String) : List Char := (trimDots ext).map lowerAscii

/-- Whether an extension can be that of a file name. -/
def isExtension (ext : String) : Bool :=
  !(trimDots ext).isEmpty && (trimDots ext).all fun c => c != '/' && c != '\\' && c != '*'

def checkExtensions : List String → Except Failure Unit
  | [] => .ok ()
  | ext :: rest =>
    if isExtension ext then checkExtensions rest else .error ⟨[], .invalidExtension ext⟩

def checkGlobs (attempt : String → Attempt) : List String → Except Failure Unit
  | [] => .ok ()
  | p :: rest =>
    match Glob.ofPattern p with
    | .error e => .error ⟨[attempt p], .glob e⟩
    | .ok _ => checkGlobs attempt rest

/-- Checks the numbers, then the extensions, then the globs. -/
def validate (c : Config) : Except Failure Unit :=
  if c.maxLines = some 0 then .error ⟨[], .zeroMaxLines⟩
  else if c.top = some 0 then .error ⟨[], .zeroTop⟩
  else do
    checkExtensions c.extensions
    checkGlobs .compileInclude c.includes
    checkGlobs .compileExclude c.excludes

def compileGlobs : List String → Except Failure (List Glob)
  | [] => .ok []
  | p :: rest =>
    match Glob.ofPattern p with
    | .error e => .error ⟨[], .glob e⟩
    | .ok g => do
      let gs ← compileGlobs rest
      return g :: gs

def scanOptions (c : Config) : ScanOptions where
  maxLines := c.maxLines.getD ({} : ScanOptions).maxLines
  bracePlacement := if c.lenientBraces.getD false then .lenient else .nextLine
  signatureMode := if c.literalAwareSignatures.getD false then .literalAware else .baseline

def palette (c : Config) : Palette where
  neutral := Color.parseOr c.neutralColor Palette.neutralDefault
  warning := Color.parseOr c.warningColor Palette.warningDefault

/-- The warnings for colors that are none. -/
def colorWarnings (c : Config) : List LogEvent :=
  Color.warnings c.neutralColor Palette.neutralDefault ++
    Color.warnings c.warningColor Palette.warningDefault

def resolve (c : Config) : Except Failure Settings := do
  c.validate
  let includes ←
    if c.includes.isEmpty then pure none else (compileGlobs c.includes).map some
  let excludes ←
    compileGlobs (if c.excludes.isEmpty then Settings.defaultExcludes else c.excludes)
  return {
    includes
    excludes
    extensions :=
      if c.extensions.isEmpty then Settings.defaultExtensions.map String.toList
      else c.extensions.map normalExtension
    scan := c.scanOptions
    palette := c.palette
    warningsOnly := c.warningsOnly.getD false
    minLines := c.minLines
    top := c.top
    source := none }

end Config

end BodyLength
