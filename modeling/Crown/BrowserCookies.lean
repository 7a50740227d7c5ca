import Crown.UriComponents
import Mathlib.Data.Rat.Floor

/-! The cookies of a page: `setCookie`, `getCookie` and `deleteCookie` of
`composables/useSocialClient.ts` over the jar of a browser. -/
namespace Crown.Client

open Lib
open JsString (WellFormed)

/-- A cookie, and at which millisecond it expires. -/
structure Cookie where
  name : JsString
  value : JsString
  expires : Option ℕ
  name_plain : unit '=' ∉ name ∧ unit ';' ∉ name
  value_plain : unit ';' ∉ value

def Cookie.live (moment : ℕ) (cookie : Cookie) : Bool := cookie.expires.all (moment < ·)

def Cookie.text (cookie : Cookie) : JsString := cookie.name ++ unit '=' :: cookie.value

structure Jar where
  cookies : List Cookie
  distinct : (cookies.map (·.name)).Nodup

/-- `document.cookie` as it is read at a moment. -/
def Jar.documentCookie (jar : Jar) (moment : ℕ) : JsString :=
  [unit ';', unit ' '].intercalate ((jar.cookies.filter (·.live moment)).map (·.text))

/-- A browser drops spaces and tabs around a name and a value. -/
def bare (s : JsString) : JsString :=
  let blank := fun u => decide (u = unit ' ' ∨ u = unit '\t')
  ((s.dropWhile blank).reverse.dropWhile blank).reverse

/-- The name and the value that a browser takes of an assigned text: up to the first semicolon,
and on either side of the first equals sign. -/
def assigned (text : JsString) : JsString × JsString :=
  let pair := text.takeWhile (· ≠ unit ';')
  if unit '=' ∈ pair then
    (bare (pair.takeWhile (· ≠ unit '=')), bare (pair.dropWhile (· ≠ unit '=')).tail)
  else ([], bare pair)

theorem bare_subset (s : JsString) : bare s ⊆ s := by
  intro u member
  have inner := (List.dropWhile_sublist _).subset (List.mem_reverse.mp member)
  exact (List.dropWhile_sublist _).subset (List.mem_reverse.mp inner)

theorem not_mem_before (u : UInt16) (s : JsString) : u ∉ s.takeWhile (· ≠ u) := fun member => by
  simpa using List.mem_takeWhile_imp member

theorem assigned_plain (text : JsString) :
    (unit '=' ∉ (assigned text).1 ∧ unit ';' ∉ (assigned text).1) ∧
      unit ';' ∉ (assigned text).2 := by
  have plain := not_mem_before (unit ';') text
  unfold assigned
  dsimp only
  split
  · refine ⟨⟨fun member => ?_, fun member => ?_⟩, fun member => ?_⟩
    · exact not_mem_before _ _ (bare_subset _ member)
    · exact plain ((List.takeWhile_sublist _).subset (bare_subset _ member))
    · have behind := List.mem_of_mem_tail (bare_subset _ member)
      exact plain ((List.dropWhile_sublist _).subset behind)
  · exact ⟨⟨List.not_mem_nil, List.not_mem_nil⟩, fun member => plain (bare_subset _ member)⟩

def Cookie.read (text : JsString) (expires : Option ℕ) : Cookie where
  name := (assigned text).1
  value := (assigned text).2
  expires := expires
  name_plain := (assigned_plain text).1
  value_plain := (assigned_plain text).2

/-- The cookie takes the place of the one with its name. -/
def replaced (cookie : Cookie) (cookies : List Cookie) : List Cookie :=
  cookies.map fun other => if other.name = cookie.name then cookie else other

/-- The jar after an assignment: a cookie that has expired is removed. -/
def stored (now : ℕ) (cookie : Cookie) (cookies : List Cookie) : List Cookie :=
  let kept := cookies.filter (·.live now)
  if cookie.live now then
    if kept.any (·.name = cookie.name) then replaced cookie kept else kept ++ [cookie]
  else kept.filter (·.name ≠ cookie.name)

theorem replaced_names (cookie : Cookie) (cookies : List Cookie) :
    (replaced cookie cookies).map (·.name) = cookies.map (·.name) := by
  rw [replaced, List.map_map]
  refine List.map_congr_left fun other _ => ?_
  by_cases same : other.name = cookie.name <;> simp [same]

theorem stored_distinct {cookies : List Cookie} (distinct : (cookies.map (·.name)).Nodup) (now : ℕ)
    (cookie : Cookie) : ((stored now cookie cookies).map (·.name)).Nodup := by
  have kept : ((cookies.filter (·.live now)).map (·.name)).Nodup :=
    distinct.sublist (List.filter_sublist.map _)
  unfold stored
  dsimp only
  split
  · split
    · rwa [replaced_names]
    · rename_i fresh
      rw [List.map_append, List.map_singleton]
      refine List.nodup_append.mpr ⟨kept, List.nodup_singleton _, ?_⟩
      rintro _ first _ second rfl
      obtain ⟨other, member, same⟩ := List.mem_map.mp first
      rw [List.mem_singleton] at second
      exact fresh (List.any_eq_true.mpr ⟨other, member, by simp [same, second]⟩)
  · exact kept.sublist (List.filter_sublist.map _)

def Jar.assign (jar : Jar) (now : ℕ) (text : JsString) (expires : Option ℕ) : Jar where
  cookies := stored now (.read text expires) jar.cookies
  distinct := stored_distinct jar.distinct now _

/-- `new Date(Date.now() + days * 864e5).toUTCString()`: whole seconds, and no date at all beyond
the last one. -/
def expiry (now : ℕ) (days : ℚ) : Option ℕ :=
  let time := now + days * 86400000
  if time ≤ 8640000000000000 then some (⌊time / 1000⌋.toNat * 1000) else none

/-- The browser takes the expiry from the attribute `expires`, which stands between the two parts
of the text. -/
def setCookie (name value : JsString) (days : ℚ) (now : ℕ) (jar : Jar) : Except UriError Jar := do
  let encoded ← encodeURIComponent value
  return jar.assign now (name ++ unit '=' :: (encoded ++ unit ';' :: js " path=/; SameSite=Strict"))
    (expiry now days)

/-- The group in the first match of `(?:^|; )name=([^;]*)`, where `sign` is `name=`. -/
def cookieMatch (sign : JsString) : (start : Bool) → JsString → Option JsString
  | _, [] => none
  | start, u :: rest =>
    if start && sign.isPrefixOf (u :: rest) then
      some (((u :: rest).drop sign.length).takeWhile (· ≠ unit ';'))
    else if (unit ';' :: unit ' ' :: sign).isPrefixOf (u :: rest) then
      some (((u :: rest).drop (sign.length + 2)).takeWhile (· ≠ unit ';'))
    else cookieMatch sign false rest

/-- What `getCookie` returns, or throws, when it reads the given text. -/
def getCookie (documentCookie name : JsString) : Except UriError (Option JsString) :=
  match cookieMatch (name ++ [unit '=']) true documentCookie with
  | some value => if value = [] then .ok none else some <$> decodeURIComponent value
  | none => .ok none

def deleteCookie (name : JsString) (now : ℕ) (jar : Jar) : Jar :=
  jar.assign now (name ++ unit '=' :: unit ';' :: js " path=/") (some 0)

/-- The cookie that a moment's text shows under a name. -/
def shown (cookies : List Cookie) (moment : ℕ) (name : JsString) : Option Cookie :=
  (cookies.filter (·.live moment)).find? (·.name = name)

def WordName (name : JsString) : Prop := ∀ u ∈ name, isWord u = true

section

variable {name front rest : JsString} {u : UInt16}

theorem takeWhile_before (apart : u ∉ front) (rest : JsString) :
    (front ++ u :: rest).takeWhile (· ≠ u) = front ∧
      (front ++ u :: rest).dropWhile (· ≠ u) = u :: rest := by
  rw [takeWhile_ne_append apart, dropWhile_ne_append apart,
    List.takeWhile_cons_of_neg (by simp), List.dropWhile_cons_of_neg (by simp)]
  exact ⟨List.append_nil _, rfl⟩

theorem bare_eq_self (plain : unit ' ' ∉ front ∧ unit '\t' ∉ front) : bare front = front := by
  have kept : ∀ s : JsString, s ⊆ front →
      s.dropWhile (fun u => decide (u = unit ' ' ∨ u = unit '\t')) = s := by
    intro s within
    cases s with
    | nil => rfl
    | cons u s =>
      refine List.dropWhile_cons_of_neg fun blank => ?_
      have member := within List.mem_cons_self
      rcases of_decide_eq_true blank with rfl | rfl
      · exact plain.1 member
      · exact plain.2 member
  have reversed := kept front.reverse fun u => List.mem_reverse.mp
  unfold bare
  dsimp only
  rw [kept front fun u => id, reversed, List.reverse_reverse]

theorem WordName.apart (word : WordName name) (other : isWord u = false) : u ∉ name :=
  fun member => Bool.eq_false_iff.mp other (word u member)

/-- What a browser takes of the text that is assigned. -/
theorem assigned_text {value : JsString} (word : WordName name)
    (plain : ∀ u ∈ value, u ≠ unit ';' ∧ u ≠ unit ' ' ∧ u ≠ unit '\t') (attributes : JsString) :
    assigned (name ++ unit '=' :: (value ++ unit ';' :: attributes)) = (name, value) := by
  have whole : unit ';' ∉ name ++ unit '=' :: value := by
    simp only [List.mem_append, List.mem_cons, not_or]
    exact ⟨word.apart (by decide), by decide, fun member => (plain _ member).1 rfl⟩
  have pair : (name ++ unit '=' :: (value ++ unit ';' :: attributes)).takeWhile (· ≠ unit ';') =
      name ++ unit '=' :: value := by
    rw [← List.cons_append, ← List.append_assoc]
    exact (takeWhile_before whole attributes).1
  obtain ⟨before, behind⟩ := takeWhile_before (word.apart (u := unit '=') (by decide)) value
  have ownName : bare name = name := bare_eq_self ⟨word.apart (by decide), word.apart (by decide)⟩
  have ownValue : bare value = value :=
    bare_eq_self ⟨fun member => (plain _ member).2.1 rfl, fun member => (plain _ member).2.2 rfl⟩
  unfold assigned
  dsimp only
  rw [pair, if_pos (List.mem_append_right _ List.mem_cons_self), before, behind, List.tail_cons,
    ownName, ownValue]

end

section

variable {sign name rest : JsString}

/-- A match begins at the start or behind a semicolon. -/
theorem cookieMatch_skip {front : JsString} (plain : unit ';' ∉ front) (rest : JsString) :
    cookieMatch sign false (front ++ rest) = cookieMatch sign false rest := by
  induction front with
  | nil => rfl
  | cons u front ih =>
    rw [List.mem_cons, not_or] at plain
    obtain ⟨first, plain⟩ := plain
    rw [List.cons_append, cookieMatch, Bool.false_and, if_neg Bool.false_ne_true,
      if_neg (by simp [List.isPrefixOf, first]), ih plain]

theorem cookieMatch_unsigned (unsigned : ¬sign <+: rest) :
    cookieMatch sign true rest = cookieMatch sign false rest := by
  cases rest with
  | nil => rfl
  | cons u rest => simp [cookieMatch, unsigned]

theorem cookieMatch_signed (filled : sign ≠ []) (rest : JsString) :
    cookieMatch sign true (sign ++ rest) = some (rest.takeWhile (· ≠ unit ';')) := by
  obtain ⟨u, sign, rfl⟩ := List.exists_cons_of_ne_nil filled
  simp [cookieMatch]

/-- Behind a separator a match begins as at the start. -/
theorem cookieMatch_next (filled : sign ≠ []) (rest : JsString) :
    cookieMatch sign false (unit ';' :: unit ' ' :: rest) = cookieMatch sign true rest := by
  by_cases signed : sign <+: rest
  · obtain ⟨more, rfl⟩ := signed
    obtain ⟨u, sign, rfl⟩ := List.exists_cons_of_ne_nil filled
    simp [cookieMatch]
  · rw [cookieMatch_unsigned signed, cookieMatch, Bool.false_and, if_neg Bool.false_ne_true,
      if_neg (by simp [signed])]
    exact cookieMatch_skip (by decide : unit ';' ∉ [unit ' ']) rest

/-- The match in a cookie's text at the start: its value where it has the name. -/
theorem cookieMatch_cookie (cookie : Cookie) (named : unit '=' ∉ name)
    (stops : rest = [] ∨ ∃ more, rest = unit ';' :: more) :
    cookieMatch (name ++ [unit '=']) true (cookie.text ++ rest) =
      if cookie.name = name then some cookie.value
      else cookieMatch (name ++ [unit '=']) false rest := by
  have text : cookie.text ++ rest = cookie.name ++ unit '=' :: (cookie.value ++ rest) := by
    rw [Cookie.text, List.append_assoc, List.cons_append]
  split
  · rename_i same
    have taken : (cookie.value ++ rest).takeWhile (· ≠ unit ';') = cookie.value := by
      rcases stops with rfl | ⟨more, rfl⟩
      · rw [List.append_nil]
        exact List.takeWhile_eq_self_iff.mpr fun u member =>
          decide_eq_true fun equal => cookie.value_plain (equal ▸ member)
      · exact (takeWhile_before cookie.value_plain more).1
    have filled : name ++ [unit '='] ≠ [] :=
      List.append_ne_nil_of_right_ne_nil _ (List.cons_ne_nil _ _)
    have signed : name ++ unit '=' :: (cookie.value ++ rest) =
        name ++ [unit '='] ++ (cookie.value ++ rest) := List.append_cons ..
    rw [text, same, signed, cookieMatch_signed filled, taken]
  · rename_i other
    have unsigned : ¬name ++ [unit '='] <+: cookie.text ++ rest := by
      rintro ⟨more, same⟩
      rw [text, List.append_assoc, List.singleton_append] at same
      have names := congrArg (List.takeWhile (· ≠ unit '=')) same
      rw [(takeWhile_before named _).1, (takeWhile_before cookie.name_plain.1 _).1] at names
      exact other names.symm
    rw [cookieMatch_unsigned unsigned]
    refine cookieMatch_skip ?_ rest
    simp only [Cookie.text, List.mem_append, List.mem_cons, not_or]
    exact ⟨cookie.name_plain.2, by decide, cookie.value_plain⟩

/-- The match in the cookies as they are joined. -/
theorem cookieMatch_joined (cookies : List Cookie) (named : unit '=' ∉ name) :
    cookieMatch (name ++ [unit '=']) true
        ([unit ';', unit ' '].intercalate (cookies.map (·.text))) =
      (cookies.find? (·.name = name)).map (·.value) := by
  have filled : name ++ [unit '='] ≠ [] := List.append_ne_nil_of_right_ne_nil _ (List.cons_ne_nil _ _)
  induction cookies with
  | nil => simp [cookieMatch]
  | cons cookie cookies ih =>
    cases cookies with
    | nil =>
      have single := @cookieMatch_cookie name [] cookie named (.inl rfl)
      rw [List.append_nil] at single
      rw [List.map_singleton, List.intercalate_singleton, single]
      by_cases same : cookie.name = name <;> simp [same, cookieMatch]
    | cons next cookies =>
      have joined : [unit ';', unit ' '].intercalate ((cookie :: next :: cookies).map (·.text)) =
          cookie.text ++ unit ';' :: unit ' ' ::
            [unit ';', unit ' '].intercalate ((next :: cookies).map (·.text)) := by
        simp
      rw [joined, cookieMatch_cookie cookie named (.inr ⟨_, rfl⟩), cookieMatch_next filled, ih]
      by_cases same : cookie.name = name
      · rw [if_pos same, List.find?_cons_of_pos (by simpa using same), Option.map_some]
      · have passed := List.find?_cons_of_neg (p := fun other => decide (other.name = name))
          (l := next :: cookies) (by simpa using same)
        rw [if_neg same, passed]

theorem cookieMatch_document (jar : Jar) (moment : ℕ) (word : WordName name) :
    cookieMatch (name ++ [unit '=']) true (jar.documentCookie moment) =
      (shown jar.cookies moment name).map (·.value) :=
  cookieMatch_joined _ (word.apart (by decide))

end

section

variable {now moment : ℕ} {cookie : Cookie} {cookies : List Cookie} {name other : JsString}

/-- What is live later is live now. -/
theorem Cookie.live_before (later : now ≤ moment) (live : cookie.live moment = true) :
    cookie.live now = true := by
  unfold Cookie.live at live ⊢
  cases expires : cookie.expires with
  | none => rfl
  | some e =>
    rw [expires] at live
    exact decide_eq_true (Nat.lt_of_le_of_lt later (of_decide_eq_true live))

theorem shown_kept (later : now ≤ moment) (name : JsString) :
    shown (cookies.filter (·.live now)) moment name = shown cookies moment name := by
  rw [shown, List.filter_filter, shown]
  congr 1
  refine List.filter_congr fun cookie _ => ?_
  rw [Bool.eq_iff_iff, Bool.and_eq_true]
  exact and_iff_left_of_imp (Cookie.live_before later)

theorem shown_cons (cookie : Cookie) (cookies : List Cookie) (moment : ℕ) (name : JsString) :
    shown (cookie :: cookies) moment name =
      if cookie.live moment = true ∧ cookie.name = name then some cookie
      else shown cookies moment name := by
  unfold shown
  by_cases live : cookie.live moment = true
  · by_cases same : cookie.name = name <;> simp [live, same]
  · simp [live]

theorem shown_none (absent : ∀ cookie ∈ cookies, cookie.name ≠ name) (moment : ℕ) :
    shown cookies moment name = none := by
  refine List.find?_eq_none.mpr fun cookie member => ?_
  simpa using absent cookie (List.mem_of_mem_filter member)

theorem shown_append (cookies : List Cookie) (cookie : Cookie) (moment : ℕ) (name : JsString) :
    shown (cookies ++ [cookie]) moment name =
      (shown cookies moment name).or (shown [cookie] moment name) := by
  rw [shown, List.filter_append, List.find?_append]
  rfl

theorem shown_replaced_other (apart : cookie.name ≠ other) (moment : ℕ) :
    shown (replaced cookie cookies) moment other = shown cookies moment other := by
  induction cookies with
  | nil => rfl
  | cons first cookies ih =>
    rw [replaced, List.map_cons, shown_cons, shown_cons, ← replaced, ih]
    by_cases same : first.name = cookie.name
    · simp [same, apart]
    · simp [same]

theorem shown_removed_other (apart : name ≠ other) (moment : ℕ) :
    shown (cookies.filter (·.name ≠ name)) moment other = shown cookies moment other := by
  induction cookies with
  | nil => rfl
  | cons first cookies ih =>
    by_cases same : first.name = name
    · rw [List.filter_cons_of_neg (by simpa using same), ih, shown_cons]
      simp [same, apart]
    · rw [List.filter_cons_of_pos (by simpa using same), shown_cons, shown_cons, ih]

/-- The cookies with other names are shown as before. -/
theorem shown_stored_other (later : now ≤ moment) (apart : cookie.name ≠ other) :
    shown (stored now cookie cookies) moment other = shown cookies moment other := by
  refine Eq.trans ?_ (shown_kept later other)
  unfold stored
  dsimp only
  split
  · split
    · exact shown_replaced_other apart moment
    · have absent : shown [cookie] moment other = none :=
        shown_none (List.forall_mem_singleton.mpr apart) moment
      rw [shown_append, absent, Option.or_none]
  · exact shown_removed_other apart moment

theorem shown_replaced_own (held : ∃ first ∈ cookies, first.name = cookie.name)
    (live : cookie.live moment = true) :
    shown (replaced cookie cookies) moment cookie.name = some cookie := by
  induction cookies with
  | nil => exact absurd held (by simp)
  | cons first cookies ih =>
    rw [replaced, List.map_cons, shown_cons, ← replaced]
    by_cases same : first.name = cookie.name
    · simp [same, live]
    · rw [if_neg same, if_neg fun both => same both.2]
      obtain ⟨second, member, named⟩ := held
      rcases List.mem_cons.mp member with rfl | behind
      · exact absurd named same
      · exact ih ⟨second, behind, named⟩

/-- A cookie is shown for as long as it lives. -/
theorem shown_stored_own (later : now ≤ moment) (live : cookie.live moment = true) :
    shown (stored now cookie cookies) moment cookie.name = some cookie := by
  unfold stored
  dsimp only
  rw [if_pos (Cookie.live_before later live)]
  split
  · rename_i held
    obtain ⟨first, member, same⟩ := List.any_eq_true.mp held
    exact shown_replaced_own ⟨first, member, of_decide_eq_true same⟩ live
  · rename_i fresh
    have absent : shown (cookies.filter (·.live now)) moment cookie.name = none :=
      shown_none (fun first member same =>
        fresh (List.any_eq_true.mpr ⟨first, member, decide_eq_true same⟩)) moment
    rw [shown_append, absent, Option.none_or, shown_cons, if_pos ⟨live, rfl⟩]

/-- A cookie that has expired is shown no more. -/
theorem shown_stored_expired (expired : ¬cookie.live now = true) (moment : ℕ) :
    shown (stored now cookie cookies) moment cookie.name = none := by
  unfold stored
  dsimp only
  rw [if_neg expired]
  exact shown_none (fun first member same => by
    simpa [same] using (List.mem_filter.mp member).2) moment

end

section

variable {name other : JsString}

/-- What is read back is decided by the cookie that is shown. -/
theorem getCookie_document (jar : Jar) (moment : ℕ) (word : WordName name) :
    getCookie (jar.documentCookie moment) name =
      match (shown jar.cookies moment name).map (·.value) with
      | some value => if value = [] then .ok none else some <$> decodeURIComponent value
      | none => .ok none := by
  rw [getCookie, cookieMatch_document jar moment word]

theorem getCookie_assign_other (jar : Jar) {now moment : ℕ} (later : now ≤ moment)
    {text : JsString} (expires : Option ℕ) (apart : (assigned text).1 ≠ other)
    (word : WordName other) :
    getCookie ((jar.assign now text expires).documentCookie moment) other =
      getCookie (jar.documentCookie moment) other := by
  have same : shown (jar.assign now text expires).cookies moment other =
      shown jar.cookies moment other := shown_stored_other later apart
  rw [getCookie_document _ _ word, getCookie_document _ _ word, same]

theorem encoded_plain (s : JsString) : ∀ u ∈ s.codePoints.flatMap encodePoint,
    u ≠ unit ';' ∧ u ≠ unit ' ' ∧ u ≠ unit '\t' := by
  intro u member
  have safe := encoded_safe s u member
  refine ⟨?_, ?_, ?_⟩ <;> rintro rfl <;> revert safe <;> unfold Safe <;> with_unfolding_all decide

/-- A second is not cut off. -/
theorem expiry_later {now e : ℕ} {days : ℚ} (second : 1 ≤ days * 86400)
    (expires : e ∈ expiry now days) : now < e := by
  unfold expiry at expires
  dsimp only at expires
  split at expires
  · obtain rfl := Option.some.inj expires
    have before := Nat.div_mul_le_self now 1000
    have after : now < (now / 1000 + 1) * 1000 := by omega
    generalize now / 1000 = seconds at before after
    have whole : ((seconds + 1 : ℕ) : ℤ) ≤ ⌊((now : ℚ) + days * 86400000) / 1000⌋ := by
      rw [Int.le_floor, le_div_iff₀ (by norm_num)]
      have begun : ((seconds * 1000 : ℕ) : ℚ) ≤ now := Nat.cast_le.mpr before
      push_cast at begun ⊢
      linarith
    generalize ⌊((now : ℚ) + days * 86400000) / 1000⌋ = floor at whole ⊢
    have bound : seconds + 1 ≤ floor.toNat := (Int.le_toNat (by omega)).mpr whole
    exact Nat.lt_of_lt_of_le after (Nat.mul_le_mul_right 1000 bound)
  · cases expires

end

/-- After `setCookie` a name's value is read back for as long as the cookie lives, and after
`deleteCookie` it is gone; the values of the other names are what they were. A cookie that is set
for a second or more is not expired at once. -/
theorem cookies_roundTrip (jar : Jar) {name value : JsString} (word : WordName name)
    (formed : WellFormed value) (filled : value ≠ []) (days : ℚ) (now : ℕ) :
    (∃ set, setCookie name value days now jar = .ok set ∧
      (∀ moment ≥ now, (∀ e ∈ expiry now days, moment < e) →
        getCookie (set.documentCookie moment) name = .ok (some value)) ∧
      ∀ moment ≥ now, ∀ other, WordName other → other ≠ name →
        getCookie (set.documentCookie moment) other =
          getCookie (jar.documentCookie moment) other) ∧
    (1 ≤ days * 86400 → ∀ e ∈ expiry now days, now < e) ∧
    ∀ moment ≥ now,
      getCookie ((deleteCookie name now jar).documentCookie moment) name = .ok none ∧
      ∀ other, WordName other → other ≠ name →
        getCookie ((deleteCookie name now jar).documentCookie moment) other =
          getCookie (jar.documentCookie moment) other := by
  have erased : assigned (name ++ unit '=' :: unit ';' :: js " path=/") = (name, []) :=
    assigned_text word (fun u member => (List.not_mem_nil member).elim) _
  refine ⟨?_, fun second e expires => expiry_later second expires, fun moment later => ⟨?_, ?_⟩⟩
  · have taken := assigned_text word (encoded_plain value) (js " path=/; SameSite=Strict")
    generalize written : name ++ unit '=' :: (value.codePoints.flatMap encodePoint ++
      unit ';' :: js " path=/; SameSite=Strict") = text at taken
    refine ⟨jar.assign now text (expiry now days), ?_, ?_, ?_⟩
    · rw [setCookie, encodeURIComponent, if_pos formed, ← written]
      rfl
    · intro moment later lasts
      have live : (Cookie.read text (expiry now days)).live moment = true := by
        unfold Cookie.live Cookie.read
        cases expires : expiry now days with
        | none => rfl
        | some e => exact decide_eq_true (lasts e expires)
      have found : shown (jar.assign now text (expiry now days)).cookies moment name =
          some (.read text (expiry now days)) := by
        have named : (Cookie.read text (expiry now days)).name = name := congrArg Prod.fst taken
        exact named ▸ shown_stored_own later live
      have encoded : (Cookie.read text (expiry now days)).value =
          value.codePoints.flatMap encodePoint := congrArg Prod.snd taken
      rw [getCookie_document _ _ word, found, Option.map_some, encoded]
      simp only [if_neg (encoded_ne_nil filled), decodeURIComponent_encode formed]
      rfl
    · intro moment later other asked apart
      exact getCookie_assign_other jar later _ (by rw [taken]; exact apart.symm) asked
  · have named : (Cookie.read (name ++ unit '=' :: unit ';' :: js " path=/") (some 0)).name = name :=
      congrArg Prod.fst erased
    have expired : ¬(Cookie.read (name ++ unit '=' :: unit ';' :: js " path=/") (some 0)).live now =
        true := by
      simp [Cookie.live, Cookie.read]
    have gone : shown (deleteCookie name now jar).cookies moment
        (Cookie.read (name ++ unit '=' :: unit ';' :: js " path=/") (some 0)).name = none :=
      shown_stored_expired expired moment
    rw [named] at gone
    rw [getCookie_document _ _ word, gone]
    rfl
  · intro other asked apart
    exact getCookie_assign_other jar later _ (by rw [erased]; exact apart.symm) asked

/-- A jar that holds the id of a user. -/
def idJar : Jar where
  cookies := [⟨js "auth_user_id", js "7", none, by with_unfolding_all decide, by with_unfolding_all decide⟩]
  distinct := List.nodup_singleton _

/-- A value with every sign that a cookie gives a meaning to. -/
theorem userCookie_read : ∃ set, setCookie (js "auth_user") (js "{;= %}") 30 0 idJar = .ok set ∧
    getCookie (set.documentCookie 0) (js "auth_user") = .ok (some (js "{;= %}")) := by
  have word : WordName (js "auth_user") := List.all_eq_true.mp (by with_unfolding_all decide)
  obtain ⟨⟨set, made, own, -⟩, lasts, -⟩ := cookies_roundTrip idJar word
    (by with_unfolding_all decide : WellFormed (js "{;= %}")) (by with_unfolding_all decide) 30 0
  exact ⟨set, made, own 0 (Nat.le_refl 0) (lasts (by norm_num))⟩

end Crown.Client
