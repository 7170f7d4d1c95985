import IntraCloud.Databases.TableView
import IntraCloud.JavaScript.Requests

/-!
# When the table view shows the latest query

The request that was issued last always asks for what the controls show. What is shown is the response that arrived
last, which need not be the one to this request.
-/

namespace Databases

open JavaScript

variable {ρ : Type} {v v' : TableView ρ} {event : ViewEvent ρ} {events : List (ViewEvent ρ)}

/-! ## Events -/

/-- A move issues the request for what it leaves in the controls, and keeps the page. -/
theorem step_move (h : v.step event = some v') (hmove : event.isMove = true) :
    v'.requests = v.requests.issue (rowsQuery v'.offset v'.search) := by
  cases event with
  | typed text =>
    cases h
    rfl
  | previous =>
    obtain ⟨_, _, hstep⟩ := Option.bind_eq_some_iff.mp h
    split at hstep
    · cases hstep
    · cases hstep
      rfl
  | next =>
    obtain ⟨_, _, hstep⟩ := Option.bind_eq_some_iff.mp h
    split at hstep
    · cases hstep
    · cases hstep
      rfl
  | answered k page => cases hmove

/-- A response leaves the controls. -/
theorem step_answered {k : Nat} {page : Option (RowsPage ρ)} (h : v.step (.answered k page) = some v') :
    v.requests.arrive k page = some v'.requests ∧ v'.offset = v.offset ∧ v'.search = v.search := by
  obtain ⟨requests, harrive, rfl⟩ := Option.map_eq_some_iff.mp h
  exact ⟨harrive, rfl, rfl⟩

/-! ## Runs -/

/-- What the controls, the requests and the page have to do with the events so far. -/
structure TableView.Follows (v : TableView ρ) (events : List (ViewEvent ρ)) : Prop where
  controls : v.requests.issued.getLast? = some (rowsQuery v.offset v.search)
  issued : v.requests.issued.length = events.countP ViewEvent.isMove + 1
  shown : v.requests.shown.map (·.1) = (events.filterMap ViewEvent.answer?).getLast?
  numbered : v.requests.Numbered
  answers : ∀ k ∈ events.filterMap ViewEvent.answer?, k < v.requests.issued.length
  arrived : ∀ k < v.requests.issued.length, k ∈ v.requests.pending ∨ ∃ page, .answered k page ∈ events

theorem follows_mounted : (TableView.mounted : TableView ρ).Follows [] where
  controls := rfl
  issued := rfl
  shown := rfl
  numbered := Requests.Numbered.issue (fun k hk => absurd hk List.not_mem_nil) _
  answers k hk := absurd hk List.not_mem_nil
  arrived k hk := .inl (by simpa [TableView.mounted, TableView.loadRows, Requests.issue, Requests.none] using hk)

/-- One event more. -/
theorem TableView.Follows.step (h : v.Follows events) (hstep : v.step event = some v') :
    v'.Follows (events ++ [event]) := by
  cases hmove : event.isMove with
  | true =>
    have hrequests := step_move hstep hmove
    have hanswer : event.answer? = none := by
      cases event with
      | answered k page => cases hmove
      | _ => rfl
    refine ⟨?_, ?_, ?_, ?_, ?_, ?_⟩
    · rw [hrequests, issued_issue, List.getLast?_concat]
    · rw [hrequests, issued_issue, List.length_append, h.issued, List.countP_append]
      simp [hmove]
    · rw [hrequests, shown_issue, h.shown]
      simp [hanswer]
    · rw [hrequests]
      exact h.numbered.issue _
    · intro k hk
      have hlt := h.answers k (by simpa [hanswer] using hk)
      rw [hrequests, issued_issue, List.length_append]
      omega
    · intro k hk
      rw [hrequests, issued_issue, List.length_append, List.length_singleton] at hk
      rw [hrequests]
      rcases Nat.lt_succ_iff_lt_or_eq.mp hk with hk | hk
      · rcases h.arrived k hk with hpending | ⟨page, hpage⟩
        · exact .inl (List.mem_append_left _ hpending)
        · exact .inr ⟨page, List.mem_append_left _ hpage⟩
      · rw [hk]
        exact .inl (List.mem_append_right _ (List.mem_singleton_self _))
  | false =>
    cases event with
    | answered k page =>
      obtain ⟨harrive, hoffset, hsearch⟩ := step_answered hstep
      obtain ⟨hk, hissued, hpending, hshown⟩ := arrive_some harrive
      refine ⟨?_, ?_, ?_, h.numbered.arrive harrive, ?_, ?_⟩
      · rw [hissued, hoffset, hsearch]
        exact h.controls
      · rw [hissued, h.issued, List.countP_append]
        simp [ViewEvent.isMove]
      · rw [hshown]
        cases page with
        | none => simpa [ViewEvent.answer?] using h.shown
        | some page => simp [ViewEvent.answer?]
      · intro k' hk'
        rw [hissued]
        rw [List.filterMap_append, List.mem_append] at hk'
        rcases hk' with hk' | hk'
        · exact h.answers k' hk'
        · cases page with
          | none => cases hk'
          | some page =>
            obtain rfl : k' = k := by simpa [ViewEvent.answer?] using hk'
            exact h.numbered k' hk
      · intro k' hk'
        rw [hissued] at hk'
        rcases h.arrived k' hk' with hk | ⟨page', hpage⟩
        · by_cases heq : k' = k
          · exact .inr ⟨page, List.mem_append_right _ (by rw [heq]; exact List.mem_singleton_self _)⟩
          · rw [hpending]
            exact .inl ((List.mem_erase_of_ne heq).mpr hk)
        · exact .inr ⟨page', List.mem_append_left _ hpage⟩
    | typed text => cases hmove
    | previous => cases hmove
    | next => cases hmove

theorem TableView.Follows.run {earlier : List (ViewEvent ρ)} (h : v.Follows earlier) (hrun : v.run events = some v') :
    v'.Follows (earlier ++ events) := by
  induction events generalizing v earlier with
  | nil =>
    cases hrun
    rwa [List.append_nil]
  | cons event events ih =>
    obtain ⟨w, hstep, hrest⟩ := Option.bind_eq_some_iff.mp hrun
    have hfollows := ih (h.step hstep) hrest
    rwa [List.append_assoc] at hfollows

/-- The controls, the requests and the page after any events. -/
theorem follows_run (h : TableView.mounted.run events = some v) : v.Follows events := by
  have hfollows := follows_mounted.run h
  rwa [List.nil_append] at hfollows

/-! ## The latest query -/

theorem showsLatest_iff_shown (h : v.Follows events) :
    v.ShowsLatest ↔ v.requests.shown.map (·.1) = some (events.countP ViewEvent.isMove) := by
  unfold TableView.ShowsLatest
  rw [h.controls, h.issued, Nat.add_sub_cancel]
  constructor
  · rintro ⟨page, hshown, -⟩
    rw [hshown]
    rfl
  · intro hshown
    obtain ⟨⟨k, page⟩, hpage, hk⟩ := Option.map_eq_some_iff.mp hshown
    exact ⟨page, by rw [hpage, ← hk], rfl⟩

/-- The page is the response to the last request exactly if this response has arrived, is a page, and no page has
arrived after it. -/
theorem showsLatest_iff (hrun : TableView.mounted.run events = some v) : v.ShowsLatest ↔ LatestLast events := by
  have hfollows := follows_run hrun
  rw [showsLatest_iff_shown hfollows, hfollows.shown]
  exact Iff.rfl

/-- Where no response is an error and none overtakes another one, the page is the latest once all have arrived. -/
theorem showsLatest_of_inOrder (hrun : TableView.mounted.run events = some v) (hall : v.requests.pending = [])
    (hpages : ∀ k page, .answered k page ∈ events → page.isSome = true)
    (horder : (events.filterMap ViewEvent.answer?).Pairwise (· < ·)) : v.ShowsLatest := by
  have hfollows := follows_run hrun
  rw [showsLatest_iff_shown hfollows, hfollows.shown]
  have hmem : events.countP ViewEvent.isMove ∈ events.filterMap ViewEvent.answer? := by
    have hlast : events.countP ViewEvent.isMove < v.requests.issued.length := by
      rw [hfollows.issued]
      omega
    rcases hfollows.arrived _ hlast with hpending | ⟨page, hpage⟩
    · rw [hall] at hpending
      cases hpending
    · obtain ⟨p, rfl⟩ := Option.isSome_iff_exists.mp (hpages _ page hpage)
      exact List.mem_filterMap.mpr ⟨_, hpage, rfl⟩
  obtain ⟨earlier, later, hsplit⟩ := List.append_of_mem hmem
  have hnone : later = [] := by
    cases later with
    | nil => rfl
    | cons k later =>
      have hlt : k < v.requests.issued.length := hfollows.answers k (by rw [hsplit]; simp)
      have hgt : events.countP ViewEvent.isMove < k := by
        rw [hsplit, List.pairwise_append] at horder
        exact (List.pairwise_cons.mp horder.2.1).1 k (List.mem_cons_self ..)
      rw [hfollows.issued] at hlt
      omega
  rw [hsplit, hnone, List.getLast?_concat]

/-! ## A page that is skipped -/

/-- The next page is asked for, and then `a` is typed; the search is answered, and the request for the page fails
after it. -/
def skipped : List (ViewEvent (List Char)) :=
  [.answered 0 (some ⟨60, 25, 0, ["abel".toList, "anna".toList]⟩), .next, .typed ['a'],
    .answered 2 (some ⟨2, 25, 0, ["abel".toList, "anna".toList]⟩), .answered 1 none]

/-- The page of the search. -/
def skippedView : TableView (List Char) where
  offset := 0
  search := ['a']
  requests :=
    { issued := [rowsQuery 0 [], rowsQuery 25 [], rowsQuery 0 ['a']]
      pending := []
      shown := some (2, ⟨2, 25, 0, ["abel".toList, "anna".toList]⟩) }

theorem showsLatest_iff_skipped : skippedView.ShowsLatest := by
  have hrun : TableView.mounted.run skipped = some skippedView := rfl
  exact (showsLatest_iff hrun).mpr rfl

/-! ## A search that is overtaken -/

/-- The letters `a` and `ab` are typed; the response to the second search arrives before that to the first. -/
def overtaken : List (ViewEvent (List Char)) :=
  [.answered 0 (some ⟨2, 25, 0, ["abel".toList, "anna".toList]⟩), .typed ['a'], .typed ['a', 'b'],
    .answered 2 (some ⟨1, 25, 0, ["abel".toList]⟩), .answered 1 (some ⟨2, 25, 0, ["abel".toList, "anna".toList]⟩)]

/-- The page of the search for `a`, under the search for `ab`. -/
def overtakenView : TableView (List Char) where
  offset := 0
  search := ['a', 'b']
  requests :=
    { issued := [rowsQuery 0 [], rowsQuery 0 ['a'], rowsQuery 0 ['a', 'b']]
      pending := []
      shown := some (1, ⟨2, 25, 0, ["abel".toList, "anna".toList]⟩) }

theorem run_overtaken : TableView.mounted.run overtaken = some overtakenView := rfl

/-- All requests are answered, and the page is not that of the search. -/
theorem not_showsLatest_overtaken :
    TableView.mounted.run overtaken = some overtakenView ∧ overtakenView.requests.pending = [] ∧
      ¬ overtakenView.ShowsLatest := by
  refine ⟨run_overtaken, rfl, ?_⟩
  rintro ⟨page, hshown, -⟩
  cases hshown

end Databases
