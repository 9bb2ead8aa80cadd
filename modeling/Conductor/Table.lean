/-! Finite maps from text keys that keep the order in which the keys first came. -/

namespace Conductor

abbrev Table (α : Type) := List (String × α)

namespace Table

variable {α β : Type}

def get? : Table α → String → Option α
  | [], _ => none
  | (k, v) :: t, key => if k = key then some v else get? t key

def has (t : Table α) (key : String) : Bool := (get? t key).isSome

/-- Writes the value of a key: in its place if the key is there, at the end if not. -/
def put : Table α → String → α → Table α
  | [], key, value => [(key, value)]
  | (k, v) :: t, key, value => if k = key then (k, value) :: t else (k, v) :: put t key value

def erase : Table α → String → Table α
  | [], _ => []
  | (k, v) :: t, key => if k = key then erase t key else (k, v) :: erase t key

/-- Writes the entries of `new` one after the other. -/
def putAll (t new : Table α) : Table α := new.foldl (fun t e => put t e.1 e.2) t

/-- Of a repeated key the last value counts, at the first one's place. -/
def ofList (entries : List (String × α)) : Table α := putAll [] entries

def keys (t : Table α) : List String := t.map (·.1)

@[simp] theorem get?_nil (key : String) : get? ([] : Table α) key = none := rfl

@[simp] theorem get?_put_self (t : Table α) (key : String) (value : α) :
    get? (put t key value) key = some value := by
  induction t with
  | nil => simp [put, get?]
  | cons e t ih =>
    by_cases h : e.1 = key
    · simp [put, get?, h]
    · simp [put, get?, h, ih]

theorem get?_put_of_ne (t : Table α) {key other : String} (value : α) (h : key ≠ other) :
    get? (put t key value) other = get? t other := by
  induction t with
  | nil => simp [put, get?, h]
  | cons e t ih =>
    by_cases hk : e.1 = key
    · have ho : ¬ e.1 = other := fun he => h (hk.symm.trans he)
      simp only [put, hk, if_true, get?, h, if_false]
    · simp only [put, hk, if_false, get?, ih]

theorem get?_put (t : Table α) (key other : String) (value : α) :
    get? (put t key value) other = if key = other then some value else get? t other := by
  by_cases h : key = other
  · subst h; simp
  · simp [h, get?_put_of_ne t value h]

/-- Writing a key changes the keys only by adding a new one at the end. -/
theorem keys_put (t : Table α) (key : String) (value : α) :
    keys (put t key value) = if key ∈ keys t then keys t else keys t ++ [key] := by
  induction t with
  | nil => simp [put, keys]
  | cons e t ih =>
    unfold keys at ih ⊢
    by_cases h : e.1 = key
    · simp [put, h]
    · have hne : key ≠ e.1 := fun he => h he.symm
      by_cases hm : key ∈ List.map (fun x => x.1) t <;> simp_all [put]

end Table

end Conductor
