import Orcastork.Library.Dict

/-!
# Workers under a register

Workers are started under a name and end once, with a report or in silence. The register holds
the latest worker of each name, until its report is collected. If a name is only given to a new
worker while the register does not hold it, then a report is always of a worker that the register
holds (`Tracked`): nothing is collected under a name that is not there, and who asks the register
for the workers under way is told of all of them (`Tracked.idle`).

Whatever the register says, every report is of one worker as long as none is lost (`Balanced`).
-/

universe u

namespace Workers

variable {Name : Type u} [DecidableEq Name]

/-- How far a worker is. -/
inductive Status where
  | working
  | reported
  | silent
  deriving DecidableEq, Repr

/-- The workers in the order they were started, the register, and the reports to collect. -/
structure Shop (Name : Type u) where
  workers : List (Name × Status)
  register : Dict Name ℕ
  reports : List Name

namespace Shop

variable (shop : Shop Name)

/-- A new worker under a name. -/
def start (name : Name) : Shop Name where
  workers := shop.workers ++ [(name, .working)]
  register := shop.register.set name shop.workers.length
  reports := shop.reports

/-- A worker ends with a report. -/
def report (name : Name) (i : ℕ) : Shop Name where
  workers := shop.workers.set i (name, .reported)
  register := shop.register
  reports := shop.reports ++ [name]

/-- A worker ends in silence. -/
def silence (name : Name) (i : ℕ) : Shop Name where
  workers := shop.workers.set i (name, .silent)
  register := shop.register
  reports := shop.reports

/-- The next report is collected, its name free again. -/
def collect (name : Name) (reports : List Name) : Shop Name where
  workers := shop.workers
  register := shop.register.erase name
  reports := reports

/-- Some reports are lost. -/
def lose (reports : List Name) : Shop Name where
  workers := shop.workers
  register := shop.register
  reports := reports

end Shop

/-- A worker under way is the one the register holds under its name, a report is of one that has
ended so, and no name has reported twice. -/
structure Tracked (shop : Shop Name) : Prop where
  working : ∀ {i name}, shop.workers[i]? = some (name, .working) →
    shop.register.get? name = some i
  reported : ∀ name ∈ shop.reports, ∃ i, shop.register.get? name = some i
    ∧ shop.workers[i]? = some (name, .reported)
  nodup : shop.reports.Nodup

namespace Tracked

variable {shop : Shop Name}

/-- Nothing is under way at first. -/
theorem initial :
  Tracked (⟨[], .empty, []⟩ : Shop Name)
  := by
  constructor
  · intro i name h
    cases h
  · exact nofun
  · exact List.nodup_nil

theorem start (h : Tracked shop) {name : Name} (hfree : shop.register.get? name = none) :
  Tracked (shop.start name)
  := by
  constructor
  · intro i other hworking
    rw [Shop.start] at hworking ⊢
    rcases Nat.lt_or_ge i shop.workers.length with hlt | hle
    · rw [List.getElem?_append_left hlt] at hworking
      have hother := h.working hworking
      have hne : name ≠ other := by
        rintro rfl
        rw [hfree] at hother
        cases hother
      rw [Dict.get?_set_of_ne _ hne]
      exact hother
    · rw [List.getElem?_append_right hle, List.getElem?_singleton] at hworking
      split at hworking
      · cases hworking
        rw [Dict.get?_set_self]
        apply congrArg some
        omega
      · cases hworking
  · intro other hother
    obtain ⟨i, hget, hreported⟩ := h.reported other hother
    have hne : name ≠ other := by
      rintro rfl
      rw [hfree] at hget
      cases hget
    use i
    rw [Shop.start, Dict.get?_set_of_ne _ hne]
    use hget
    rw [List.getElem?_append_left]
    · exact hreported
    · exact (List.getElem?_eq_some_iff.mp hreported).1
  · exact h.nodup

/-- A worker under way has not reported. -/
theorem not_mem_reports (h : Tracked shop) {name : Name} {i : ℕ}
    (hworking : shop.workers[i]? = some (name, .working)) :
  name ∉ shop.reports
  := by
  intro hmem
  obtain ⟨j, hget, hreported⟩ := h.reported name hmem
  rw [h.working hworking] at hget
  cases hget
  rw [hworking] at hreported
  cases hreported

omit [DecidableEq Name] in
/-- Another worker is as it was. -/
private theorem workers_set {workers : List (Name × Status)} {i j : ℕ} {name : Name}
    {ended status : Status} {other : Name} (hended : ended ≠ status)
    (h : (workers.set i (name, ended))[j]? = some (other, status)) :
  i ≠ j ∧ workers[j]? = some (other, status)
  := by
  rw [List.getElem?_set] at h
  split at h
  · split at h
    · obtain ⟨-, hstatus⟩ := Prod.mk.inj (Option.some.inj h)
      exact absurd hstatus hended
    · cases h
  · rename_i hne
    exact ⟨hne, h⟩

theorem report (h : Tracked shop) {name : Name} {i : ℕ}
    (hworking : shop.workers[i]? = some (name, .working)) :
  Tracked (shop.report name i)
  := by
  constructor
  · intro j other hother
    exact h.working (workers_set (by decide) hother).2
  · intro other hother
    rcases List.mem_append.mp hother with hother | hother
    · obtain ⟨j, hget, hreported⟩ := h.reported other hother
      use j, hget
      rw [Shop.report, List.getElem?_set_ne]
      · exact hreported
      · rintro rfl
        rw [hworking] at hreported
        cases hreported
    · obtain rfl := List.mem_singleton.mp hother
      use i, h.working hworking
      rw [Shop.report, List.getElem?_set_self]
      exact (List.getElem?_eq_some_iff.mp hworking).1
  · rw [Shop.report, List.nodup_append]
    refine ⟨h.nodup, List.nodup_singleton name, ?_⟩
    intro other hother reported hreported heq
    rw [List.mem_singleton.mp hreported] at heq
    subst heq
    exact h.not_mem_reports hworking hother

theorem silence (h : Tracked shop) {name : Name} {i : ℕ}
    (hworking : shop.workers[i]? = some (name, .working)) :
  Tracked (shop.silence name i)
  := by
  constructor
  · intro j other hother
    exact h.working (workers_set (by decide) hother).2
  · intro other hother
    obtain ⟨j, hget, hreported⟩ := h.reported other hother
    use j, hget
    rw [Shop.silence, List.getElem?_set_ne]
    · exact hreported
    · rintro rfl
      rw [hworking] at hreported
      cases hreported
  · exact h.nodup

/-- The next report is of a worker that the register holds, and it is collected for good. -/
theorem collect (h : Tracked shop) {name : Name} {reports : List Name}
    (hreports : shop.reports = name :: reports) :
  (∃ i, shop.register.get? name = some i) ∧ Tracked (shop.collect name reports)
  := by
  have hmem : name ∈ shop.reports := by
    rw [hreports]
    apply List.mem_cons_self
  obtain ⟨i, hget, hreported⟩ := h.reported name hmem
  have hnodup := h.nodup
  rw [hreports, List.nodup_cons] at hnodup
  refine ⟨⟨i, hget⟩, ?_, ?_, hnodup.2⟩
  · intro j other hworking
    have hother := h.working hworking
    rw [Shop.collect, Dict.get?_erase, if_neg]
    · exact hother
    · rintro rfl
      exact h.not_mem_reports hworking hmem
  · intro other hother
    obtain ⟨j, hget, hreported⟩ := h.reported other (by
      rw [hreports]
      exact List.mem_cons_of_mem name hother)
    use j
    rw [Shop.collect, Dict.get?_erase, if_neg]
    · exact ⟨hget, hreported⟩
    · rintro rfl
      exact hnodup.1 hother

theorem lose (h : Tracked shop) {reports : List Name} (hlost : reports.Sublist shop.reports) :
  Tracked (shop.lose reports)
  := ⟨h.working, fun name hname => h.reported name (hlost.subset hname), h.nodup.sublist hlost⟩

/-- If no worker that the register holds is under way, none is. -/
theorem idle (h : Tracked shop)
    (hregister : ∀ name i, shop.register.get? name = some i →
      ∀ other, shop.workers[i]? ≠ some (other, .working)) :
  ∀ worker ∈ shop.workers, worker.2 ≠ .working
  := by
  rintro ⟨name, status⟩ hworker rfl
  obtain ⟨i, hi⟩ := List.mem_iff_getElem?.mp hworker
  exact hregister name i (h.working hi) name hi

end Tracked

/-! ### Balance -/

/-- The name of a worker that has reported. -/
def reportOf (worker : Name × Status) : Option Name :=
  if worker.2 = .reported then some worker.1 else none

/-- The names of the workers that have reported. -/
def Shop.reported (shop : Shop Name) : List Name := shop.workers.filterMap reportOf

/-- The workers that have reported are those whose reports were collected or are to be. -/
def Balanced (shop : Shop Name) (collected : List Name) : Prop :=
  shop.reported.Perm (collected ++ shop.reports)

omit [DecidableEq Name] in
/-- A worker that has not reported ends with another status. -/
theorem filterMap_reportOf_set {workers : List (Name × Status)} {i : ℕ} {worker : Name × Status}
    (hworker : workers[i]? = some worker) (hsilent : reportOf worker = none)
    (ended : Name × Status) :
  ((workers.set i ended).filterMap reportOf).Perm
    (workers.filterMap reportOf ++ (reportOf ended).toList)
  := by
  induction workers generalizing i with
  | nil => cases hworker
  | cons first workers ih =>
      cases i with
      | zero =>
          cases hworker
          rw [List.set_cons_zero, List.filterMap_cons_none hsilent]
          cases hended : reportOf ended with
          | none =>
              rw [List.filterMap_cons_none hended]
              exact List.Perm.of_eq (List.append_nil _).symm
          | some name =>
              rw [List.filterMap_cons_some hended]
              exact (List.perm_append_singleton name _).symm
      | succ i =>
          rw [List.set_cons_succ]
          cases hfirst : reportOf first with
          | none =>
              rw [List.filterMap_cons_none hfirst, List.filterMap_cons_none hfirst]
              exact ih hworker
          | some name =>
              rw [List.filterMap_cons_some hfirst, List.filterMap_cons_some hfirst]
              exact (ih hworker).cons name

namespace Balanced

variable {shop : Shop Name} {collected : List Name}

theorem start (h : Balanced shop collected) (name : Name) :
  Balanced (shop.start name) collected
  := by
  have hsame : (shop.start name).reported = shop.reported := by
    rw [Shop.reported, Shop.start, List.filterMap_append]
    exact List.append_nil _
  rw [Balanced, hsame]
  exact h

omit [DecidableEq Name] in
theorem report (h : Balanced shop collected) {name : Name} {i : ℕ}
    (hworking : shop.workers[i]? = some (name, .working)) :
  Balanced (shop.report name i) collected
  := by
  have hended := filterMap_reportOf_set hworking rfl (name, .reported)
  rw [Balanced, Shop.report, ← List.append_assoc]
  exact hended.trans (h.append_right [name])

omit [DecidableEq Name] in
theorem silence (h : Balanced shop collected) {name : Name} {i : ℕ}
    (hworking : shop.workers[i]? = some (name, .working)) :
  Balanced (shop.silence name i) collected
  := by
  have hended := filterMap_reportOf_set hworking rfl (name, .silent)
  rw [show (reportOf (name, Status.silent)).toList = [] from rfl, List.append_nil] at hended
  exact hended.trans h

theorem collect (h : Balanced shop collected) {name : Name} {reports : List Name}
    (hreports : shop.reports = name :: reports) :
  Balanced (shop.collect name reports) (collected ++ [name])
  := by
  rw [Balanced, hreports] at h
  rw [Balanced, List.append_assoc]
  exact h

end Balanced

end Workers
