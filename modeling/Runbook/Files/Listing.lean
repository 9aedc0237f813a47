import Runbook.Files.Basic

/-! # Listings

The paths of what is in a directory, or of everything beneath it, in order. A directory is marked
with a slash at the end, and so is a link to one, but nothing beneath a link is listed.
-/

namespace Runbook.Files

/-- The most paths in a listing. -/
def listingLimit : Nat := 500

/-- The locations in a directory or beneath it, in order. -/
def entries (fs : Files) (l : Location) (recursive : Bool) : List Location :=
  (if recursive then fs.descendants l else fs.children l).mergeSort Location.precedes

/-- How a location is listed, from the root of the workspace. -/
def listed (fs : Files) (root l : Location) : String :=
  let mark := match fs.isDirectory l with
    | .ok true => "/"
    | _ => ""
  Location.relativeTo root l ++ mark

/-- The listing of a directory, and whether some of it was left out. -/
def listing (fs : Files) (root l : Location) (recursive : Bool) : List String × Bool :=
  let all := fs.entries l recursive
  ((all.take listingLimit).map (fs.listed root), listingLimit < all.length)

end Runbook.Files
