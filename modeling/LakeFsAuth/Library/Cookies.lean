import Mathlib.Data.List.Induction
import Mathlib.Data.List.Nodup

/-! The cookies of a browser. It keeps a cookie under its name, domain and path, until a
`Set-Cookie` of the same replaces or removes it, or its `Max-Age` has passed. -/
namespace LakeFsAuth.Library.Cookies

structure Key where
  name : String
  domain : Option String
  path : Option String
  deriving DecidableEq

/-- What a response tells the browser to set. -/
structure SetCookie where
  key : Key
  value : String
  maxAge : Option Nat
  deriving DecidableEq

/-- A cookie the browser keeps. Without an expiry it is kept until the browser closes. -/
structure Kept where
  key : Key
  value : String
  expires : Option Nat
  deriving DecidableEq

def SetCookie.keep (cookie : SetCookie) (now : Nat) : Kept :=
  ⟨cookie.key, cookie.value, cookie.maxAge.map (now + ·)⟩

def SetCookie.removes (cookie : SetCookie) : Bool := cookie.maxAge == some 0

/-- A `Set-Cookie` that is obeyed. -/
def receive (now : Nat) (store : List Kept) (cookie : SetCookie) : List Kept :=
  store.filter (fun kept => kept.key != cookie.key) ++
    if cookie.removes then [] else [cookie.keep now]

def Kept.live (kept : Kept) (now : Nat) : Bool := kept.expires.all (now < ·)

/-- What a request shows. -/
def shown (now : Nat) (store : List Kept) : List Kept := store.filter fun kept => kept.live now

/-- The store after all a browser was told, and when. -/
def storeOf (heard : List (Nat × SetCookie)) : List Kept :=
  heard.foldl (fun store (now, cookie) => receive now store cookie) []

/-- The last of what it was told of a cookie. -/
def word (key : Key) (heard : List (Nat × SetCookie)) : Option (Nat × SetCookie) :=
  heard.findRev? fun entry => entry.2.key == key

section Store
variable {heard : List (Nat × SetCookie)} {now : Nat} {cookie : SetCookie} {store : List Kept} {kept : Kept}

theorem storeOf_append (heard more : List (Nat × SetCookie)) :
    storeOf (heard ++ more) =
      more.foldl (fun store (now, cookie) => receive now store cookie) (storeOf heard) :=
  List.foldl_append

theorem mem_receive : kept ∈ receive now store cookie ↔
    (kept ∈ store ∧ kept.key ≠ cookie.key) ∨ (cookie.removes = false ∧ kept = cookie.keep now) := by
  unfold receive
  rw [List.mem_append, List.mem_filter, bne_iff_ne]
  split
  · simp [*]
  · simp [*]

theorem receive_nodup (h : (store.map Kept.key).Nodup) :
    ((receive now store cookie).map Kept.key).Nodup := by
  unfold receive
  rw [List.map_append]
  refine List.Nodup.append (h.sublist ((List.filter_sublist).map _)) ?_ ?_
  · split <;> simp
  · intro key hkey hlast
    obtain ⟨kept, hkept, rfl⟩ := List.mem_map.mp hkey
    have hne := (List.mem_filter.mp hkept).2
    split at hlast
    · simp at hlast
    · have hsame : kept.key = cookie.key := by simpa [SetCookie.keep] using hlast
      exact absurd hsame (by simpa using hne)

theorem word_snoc (key : Key) : word key (heard ++ [(now, cookie)]) =
    if cookie.key = key then some (now, cookie) else word key heard := by
  unfold word
  rw [List.findRev?_eq_find?_reverse, List.findRev?_eq_find?_reverse, List.reverse_append]
  by_cases hkey : cookie.key = key <;> simp [hkey]

/-- A browser keeps one cookie of a kind. -/
theorem storeOf_nodup (heard : List (Nat × SetCookie)) : ((storeOf heard).map Kept.key).Nodup := by
  induction heard using List.reverseRecOn with
  | nil => exact List.nodup_nil
  | append_singleton heard entry ih =>
    rw [storeOf_append]
    exact receive_nodup ih

/-- It keeps what it was told last. -/
theorem mem_storeOf : kept ∈ storeOf heard ↔
    ∃ now cookie, word kept.key heard = some (now, cookie) ∧ cookie.removes = false ∧
      kept = cookie.keep now := by
  induction heard using List.reverseRecOn with
  | nil => simp [storeOf, word]
  | append_singleton heard entry ih =>
    obtain ⟨now, cookie⟩ := entry
    rw [storeOf_append, List.foldl_cons, List.foldl_nil, mem_receive, word_snoc, ih]
    by_cases hkey : cookie.key = kept.key
    · simp only [hkey, ne_eq, not_true_eq_false, and_false, false_or, Option.some.injEq,
        Prod.mk.injEq, ↓reduceIte]
      constructor
      · rintro ⟨hstays, hkept⟩
        exact ⟨now, cookie, ⟨rfl, rfl⟩, hstays, hkept⟩
      · rintro ⟨_, _, ⟨rfl, rfl⟩, hstays, hkept⟩
        exact ⟨hstays, hkept⟩
    · rw [if_neg hkey]
      constructor
      · rintro (⟨hkept, _⟩ | ⟨_, hkept⟩)
        · exact hkept
        · exact absurd (hkept ▸ rfl) hkey
      · exact fun hkept => .inl ⟨hkept, Ne.symm hkey⟩

/-- A request shows what the browser was told last, until its time has passed. -/
theorem mem_shown {later : Nat} : kept ∈ shown later (storeOf heard) ↔
    ∃ now cookie, word kept.key heard = some (now, cookie) ∧ cookie.removes = false ∧
      (∀ maxAge, cookie.maxAge = some maxAge → later < now + maxAge) ∧ kept = cookie.keep now := by
  unfold shown
  rw [List.mem_filter, mem_storeOf]
  constructor
  · rintro ⟨⟨now, cookie, hword, hstays, rfl⟩, hlive⟩
    refine ⟨now, cookie, hword, hstays, fun maxAge hmaxAge => ?_, rfl⟩
    simpa [Kept.live, SetCookie.keep, hmaxAge] using hlive
  · rintro ⟨now, cookie, hword, hstays, hlive, rfl⟩
    refine ⟨⟨now, cookie, hword, hstays, rfl⟩, ?_⟩
    cases hmaxAge : cookie.maxAge with
    | none => simp [Kept.live, SetCookie.keep, hmaxAge]
    | some maxAge => simpa [Kept.live, SetCookie.keep, hmaxAge] using hlive maxAge hmaxAge

/-- The last word is one of those it was told, and none on the same cookie came after it. -/
theorem word_eq_some {key : Key} (h : word key heard = some (now, cookie)) : cookie.key = key ∧
    ∃ before after, heard = before ++ (now, cookie) :: after ∧ ∀ entry ∈ after, entry.2.key ≠ key := by
  induction heard using List.reverseRecOn with
  | nil => simp [word] at h
  | append_singleton heard entry ih =>
    obtain ⟨now', cookie'⟩ := entry
    rw [word_snoc] at h
    split at h
    · cases h
      exact ⟨‹_›, heard, [], rfl, by simp⟩
    · rename_i hother
      obtain ⟨hkey, before, after, rfl, hafter⟩ := ih h
      refine ⟨hkey, before, after ++ [(now', cookie')], by simp, fun entry hentry => ?_⟩
      rcases List.mem_append.mp hentry with hmem | hmem
      · exact hafter entry hmem
      · obtain rfl := List.mem_singleton.mp hmem
        exact hother

/-- The last word on a cookie that is spoken of again. -/
theorem word_append {more : List (Nat × SetCookie)} {entry : Nat × SetCookie} (spoken : entry ∈ more) :
    ∃ last ∈ more, last.2.key = entry.2.key ∧ word entry.2.key (heard ++ more) = some last := by
  have hfound : (more.findRev? fun other => other.2.key == entry.2.key).isSome = true := by
    simpa [List.findRev?_eq_find?_reverse] using ⟨entry.1, entry.2, spoken, rfl⟩
  obtain ⟨last, hlast⟩ := Option.isSome_iff_exists.mp hfound
  rw [List.findRev?_eq_find?_reverse] at hlast
  refine ⟨last, List.mem_reverse.mp (List.mem_of_find?_eq_some hlast), ?_, ?_⟩
  · simpa using List.find?_some hlast
  · rw [word, List.findRev?_eq_find?_reverse, List.reverse_append, List.find?_append, hlast]
    rfl

theorem word_append_other {key : Key} {more : List (Nat × SetCookie)}
    (silent : ∀ entry ∈ more, entry.2.key ≠ key) : word key (heard ++ more) = word key heard := by
  have hnone : more.reverse.find? (fun entry => entry.2.key == key) = none := by
    simpa using silent
  rw [word, word, List.findRev?_eq_find?_reverse, List.findRev?_eq_find?_reverse,
    List.reverse_append, List.find?_append, hnone]
  rfl

end Store

end LakeFsAuth.Library.Cookies
