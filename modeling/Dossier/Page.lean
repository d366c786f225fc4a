/-
Pages of an ordered result, counted from zero.
-/
import Dossier.Bounded
import Dossier.Fault

namespace Dossier

/-- Which page to fetch and how many items it holds. -/
structure PageRequest where
  page : Nat := 0
  size : Nat := 20
  deriving DecidableEq

namespace PageRequest

/-- Checks page parameters as they arrive; of two at fault the page is reported. -/
def ofSigned (page size : Int64) : Except Fault PageRequest :=
  if page.toInt < 0 then .error (.validation (.negativePage page.toInt))
  else if size.toInt ≤ 0 then .error (.validation (.nonPositivePageSize size.toInt))
  else .ok ⟨page.toInt.toNat, size.toInt.toNat⟩

/-- A page holds at least one item. -/
def check (r : PageRequest) : Except Fault Unit :=
  if r.size = 0 then .error (.validation .emptyPageSize) else .ok ()

/-- How many items come before the page, at most the largest number of 64 bits. -/
def offset (r : PageRequest) : Nat := Bounded.saturatingMul r.page r.size

end PageRequest

/-- One page of a result. -/
structure Page (α : Type) where
  items : List α := []
  page : Nat := 0
  /-- How many items the page holds. -/
  pageSize : Nat := 0
  /-- How many pages hold the whole result. -/
  totalPages : Nat := 0
  totalElements : Nat := 0

namespace Page

variable {α β : Type}

/-- The page of a request with the given items, out of a result of the given size. -/
def ofItems (items : List α) (request : PageRequest) (totalElements : Nat) : Page α where
  items := items
  page := request.page
  pageSize := items.length
  totalPages := (totalElements + (max request.size 1 - 1)) / max request.size 1
  totalElements := totalElements

/-- Changes the items and keeps the numbers. -/
def map (f : α → β) (p : Page α) : Page β where
  items := p.items.map f
  page := p.page
  pageSize := p.pageSize
  totalPages := p.totalPages
  totalElements := p.totalElements

def isEmpty (p : Page α) : Bool := p.items.isEmpty

/-- Whether a later page holds items. -/
def hasNext (p : Page α) : Bool := p.page + 1 < p.totalPages

/-- A page as a value, its items by `item`. -/
def toValue (item : α → Value) (p : Page α) : Value :=
  let count (n : Nat) : Value := .int64 (Int64.ofNat n)
  .document [("items", .array (p.items.map item)), ("page", count p.page),
    ("pageSize", count p.pageSize), ("totalPages", count p.totalPages),
    ("totalElements", count p.totalElements)]

end Page

end Dossier
