import Proxora.Ecma.Doubles
import Proxora.MountPoints

/-!
# Disks in a guest configuration

`lib/proxmox-disk.ts`: the size of a disk in its configuration text, read in gibibytes and written
back. A size is a double, with the roundings of the source.
-/

namespace Proxora

open Ecma

structure ParsedDiskSpec where
  volume : Text
  sizeGiB : Option Double
  rest : List Text
deriving DecidableEq, Repr

/-- `KMGT`, in either case, with a `B` or without. -/
def sizeUnit (text : Text) : Option Char :=
  match text.map Char.toUpper with
  | [unit] => if unit ∈ ['K', 'M', 'G', 'T'] then some unit else none
  | [unit, 'B'] => if unit ∈ ['K', 'M', 'G', 'T'] then some unit else none
  | _ => none

def isSizeChar (c : Char) : Bool := c.isDigit || c = '.'

/-- The number of the text and its unit. -/
def sizeMatch (text : Text) : Option (Text × Char) :=
  let number := text.takeWhile isSizeChar
  let behind := text.dropWhile isSizeChar
  if number = [] then none
  else if behind = [] then some (number, 'G')
  else (sizeUnit (behind.dropWhile isSpace)).map fun unit => (number, unit)

def sizeToGiB (raw : Text) : Option Double :=
  match sizeMatch (trim raw) with
  | none => none
  | some (number, unit) =>
      match numberOfDecimal number with
      | .finite n =>
          if unit = 'K' then some ((Double.finite n).scale (mkRat 1 (1024 * 1024)))
          else if unit = 'M' then some ((Double.finite n).scale (mkRat 1 1024))
          else if unit = 'T' then some ((Double.finite n).scale 1024)
          else some (.finite n)
      | _ => none

def formatDiskGiB (sizeGiB : Double) : Text :=
  let rounded := (sizeGiB.scale 1000).round.scale (mkRat 1 1000)
  rounded.text ++ ['G']

/-- `part.toLowerCase().startsWith("size=")`. -/
def isSizePart (part : Text) : Bool := startsWith (toLowerCase part) "size="

/-- `/\d+(?:\.\d+)?/`, as the whole text. -/
def isPlainDecimal (s : Text) : Bool :=
  match split '.' s with
  | [whole] => whole ≠ [] && whole.all Char.isDigit
  | [whole, fraction] =>
      whole ≠ [] && whole.all Char.isDigit && fraction ≠ [] && fraction.all Char.isDigit
  | _ => false

/-- The first group of `/^[^:]+:(\d+(?:\.\d+)?)$/`. -/
def bareSize (volume : Text) : Option Text :=
  match split ':' volume with
  | [storage, size] => if storage ≠ [] && isPlainDecimal size then some size else none
  | _ => none

/-- The text behind `size=`, or the one behind the storage. -/
def diskSizeText (volume : Text) (rest : List Text) : Text :=
  let sizeRaw := (rest.find? isSizePart).elim [] fun part => (part.dropWhile (· ≠ '=')).tail
  if sizeRaw = [] then (bareSize volume).elim [] (· ++ ['G']) else sizeRaw

def parseDiskSpec (raw : Text) : ParsedDiskSpec :=
  let volume := (specParts raw).head?.getD []
  let rest := (specParts raw).tail
  let sizeRaw := diskSizeText volume rest
  { volume
    sizeGiB := if sizeRaw = [] then none else sizeToGiB sizeRaw
    rest }

/-- The parts of the text with a size in front of the other options. -/
def sizedParts (raw : Text) (size : Text) : List Text :=
  (parseDiskSpec raw).volume :: (("size=" : Text) ++ size) ::
    (parseDiskSpec raw).rest.filter (!isSizePart ·)

def setDiskSize (raw : Text) (sizeGiB : Double) : Text :=
  join ',' (sizedParts raw (formatDiskGiB sizeGiB))

/-- `/(?:^|,)media=cdrom(?:,|$)/i.test(raw)`. -/
def isCdromDisk (raw : Text) : Bool :=
  (split ',' raw).any fun part => toLowerCase part = "media=cdrom"

/-- `key.toLowerCase()` begins with `efidisk` or `tpmstate`. -/
def canResizeDisk (key raw : Text) : Bool :=
  if isCdromDisk raw then false
  else if startsWith (toLowerCase key) "efidisk" || startsWith (toLowerCase key) "tpmstate" then
    false
  else (parseDiskSpec raw).sizeGiB.isSome

def diskSizeDeltaGiB (before after : Text) : Option Double :=
  match (parseDiskSpec before).sizeGiB, (parseDiskSpec after).sizeGiB with
  | some oldSize, some nextSize => some (nextSize.sub oldSize)
  | _, _ => none

end Proxora
