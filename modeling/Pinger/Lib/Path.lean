import Pinger.Lib.Bytes

/-! # Rooted paths

`path.Join` and `path.Clean` of a path that begins with a slash: empty elements and `.` are dropped,
and `..` takes back the element before it, if there is one. An element that is none of these and has
no slash stays as it is, so a path that ends in one determines it. -/

namespace GoString

/-- An element is put behind the elements so far. -/
def cleanElem (elems : List GoString) (elem : GoString) : List GoString :=
  if elem = [] ∨ elem = lit "." then elems
  else if elem = lit ".." then elems.dropLast
  else elems ++ [elem]

def cleanElems (s : GoString) : List GoString := (split '/' s).foldl cleanElem []

def rooted (elems : List GoString) : GoString :=
  if elems = [] then lit "/" else elems.flatMap ('/' :: ·)

/-- `path.Join("/", elems...)`. -/
def joinRooted (elems : List GoString) : GoString :=
  rooted (cleanElems (elems.foldl (fun s elem => s ++ '/' :: elem) (lit "/")))

example : joinRooted [lit "a//b/./../c", lit "/", lit "d"] = lit "/a/c/d" := by decide +kernel

/-- An element that stays as it is. -/
structure Ordinary (elem : GoString) : Prop where
  slash : '/' ∉ elem
  ne_nil : elem ≠ []
  ne_dot : elem ≠ lit "."
  ne_dots : elem ≠ lit ".."

theorem cleanElem_ordinary (h : Ordinary elem) (elems : List GoString) :
    cleanElem elems elem = elems ++ [elem] := by
  rw [cleanElem, if_neg (not_or.mpr ⟨h.ne_nil, h.ne_dot⟩), if_neg h.ne_dots]

theorem cleanElems_append (s t : GoString) :
    cleanElems (s ++ '/' :: t) = (split '/' t).foldl cleanElem (cleanElems s) := by
  rw [cleanElems, split_join, List.foldl_append, cleanElems]

theorem cleanElems_ordinary (h : Ordinary elem) (s : GoString) :
    cleanElems (s ++ '/' :: elem) = cleanElems s ++ [elem] := by
  rw [cleanElems_append, split_of_not_mem h.slash, List.foldl_cons, List.foldl_nil,
    cleanElem_ordinary h]

theorem cleanElems_slash (s : GoString) : cleanElems (s ++ '/' :: lit "/") = cleanElems s := by
  rw [cleanElems_append]
  rfl

theorem rooted_concat (elems : List GoString) (elem : GoString) :
    rooted (elems ++ [elem]) = elems.flatMap ('/' :: ·) ++ '/' :: elem := by
  rw [rooted, if_neg (by simp), List.flatMap_append, List.flatMap_singleton]

end GoString
