import Proxora.GuestScope

/-!
# The documented scope

The rules "Host and guest scope" of `docs/authorization.md`, as a predicate on
the stored rows of a user, against the tests of the session that is built from
them.

`scope_documented_iff` says when the two agree: unless guest rows are stored and
the session can use none of them, which widens the scope to what the user would
have without guest rows.
-/

namespace Proxora

open Ecma

/-- What the rules say about a guest: without any row the role decides; host rows bind
to their hosts, guest rows to their guests. -/
def DocumentedScope (source : SessionUserSource) (guest : GuestScope) : Prop :=
  (source.hosts = [] ∧ source.guestAccess = [] ∧ source.seesHosts = true) ∨
    (guest.hostId ∈ source.hosts ∨
        source.hosts = [] ∧ ∃ row ∈ source.guestAccess, row.hostId = guest.hostId) ∧
      (source.guestAccess = [] ∨
        ∃ row ∈ source.guestAccess, row.hostId = guest.hostId ∧ row.kind = guest.kind.name ∧
          row.vmid = guest.vmid)

/-- There are no guest rows, or one that names a guest, or nothing would be allowed
without them. -/
def RowsUsable (source : SessionUserSource) : Prop :=
  source.guestAccess = [] ∨ source.guests ≠ [] ∨ source.hosts = [] ∧ source.seesHosts = false

variable {source : SessionUserSource} {guest : GuestScope}

/-- A row names the guest when its columns are the guest's. -/
theorem scope?_eq_some_iff {row : GuestAccessGrant} :
    row.scope? = some guest ↔
      row.hostId = guest.hostId ∧ row.kind = guest.kind.name ∧ row.vmid = guest.vmid := by
  constructor
  · intro named
    obtain ⟨kind, parsed, rfl⟩ := Option.map_eq_some_iff.mp named
    refine ⟨rfl, ?_, rfl⟩
    unfold parseGuestKind at parsed
    split at parsed
    · next isVm =>
      cases parsed
      exact isVm
    · split at parsed
      · next isLxc =>
        cases parsed
        exact isLxc
      · cases parsed
  · rintro ⟨sameHost, sameKind, sameVmid⟩
    unfold GuestAccessGrant.scope?
    rw [sameKind, parseGuestKind_name, sameHost, sameVmid]
    rfl

theorem mem_guests_iff :
    guest ∈ source.guests ↔
      ∃ row ∈ source.guestAccess, row.hostId = guest.hostId ∧ row.kind = guest.kind.name ∧
        row.vmid = guest.vmid := by
  unfold SessionUserSource.guests
  rw [List.mem_filterMap]
  exact exists_congr fun row => and_congr_right fun _ => scope?_eq_some_iff

theorem guests_eq_nil_of_none (empty : source.guestAccess = []) : source.guests = [] := by
  unfold SessionUserSource.guests
  rw [empty]
  rfl

/-- Where a guest row names a guest, the rules bind to the guests named, on the hosts of
the host rows if there are any. -/
theorem documentedScope_of_some (some_guest : source.guests ≠ []) :
    DocumentedScope source guest ↔
      (guest.hostId ∈ source.hosts ∨ source.hosts = []) ∧ guest ∈ source.guests := by
  have rows : source.guestAccess ≠ [] := fun empty => some_guest (guests_eq_nil_of_none empty)
  unfold DocumentedScope
  rw [← mem_guests_iff]
  constructor
  · rintro (⟨-, empty, -⟩ | ⟨host, empty | named⟩)
    · exact absurd empty rows
    · exact absurd empty rows
    · exact ⟨host.imp_right And.left, named⟩
  · rintro ⟨host, named⟩
    refine .inr ⟨host.imp_right fun noHosts => ⟨noHosts, ?_⟩, .inr named⟩
    obtain ⟨row, member, sameHost, -, -⟩ := mem_guests_iff.mp named
    exact ⟨row, member, sameHost⟩

/-- Where there are no guest rows, the host rows decide, or the role. -/
theorem documentedScope_of_none (empty : source.guestAccess = []) :
    DocumentedScope source guest ↔
      source.hosts = [] ∧ source.seesHosts = true ∨ guest.hostId ∈ source.hosts := by
  unfold DocumentedScope
  rw [empty]
  simp

/-- Guest rows that name no guest allow nothing. -/
theorem not_documentedScope (rows : source.guestAccess ≠ []) (unusable : source.guests = []) :
    ¬DocumentedScope source guest := by
  rintro (⟨-, empty, -⟩ | ⟨-, empty | named⟩)
  · exact rows empty
  · exact rows empty
  · rw [← mem_guests_iff, unusable] at named
    exact absurd named List.not_mem_nil

/-- The session, where a guest row names a guest. -/
theorem canAccessGuest_of_some (some_guest : source.guests ≠ []) :
    canAccessGuest (toSessionUser source).toAccessScope guest.hostId guest.kind guest.vmid = true ↔
      (guest.hostId ∈ source.hosts ∨ source.hosts = []) ∧ guest ∈ source.guests := by
  rw [canAccessGuest_iff, canAccessHost_iff, or_iff_right some_guest]
  refine and_congr_left fun named => ?_
  by_cases hosts : source.hosts = []
  · rw [if_neg (not_not.mpr hosts), if_pos some_guest]
    exact iff_of_true ⟨guest, named, rfl⟩ (.inr hosts)
  · rw [if_pos hosts, or_iff_left hosts]

/-- The session, where no guest row names a guest. -/
theorem canAccessGuest_of_none (unusable : source.guests = []) :
    canAccessGuest (toSessionUser source).toAccessScope guest.hostId guest.kind guest.vmid = true ↔
      source.hosts = [] ∧ source.seesHosts = true ∨ guest.hostId ∈ source.hosts := by
  rw [canAccessGuest_iff, canAccessHost_iff, and_iff_left (.inl unusable), unusable]
  by_cases hosts : source.hosts = []
  · rw [hosts]
    simp
  · rw [if_pos hosts]
    simp [hosts]

/-- The list filter keeps what the test accepts. -/
theorem filterGuestsForUser_eq {α : Type} (vmidOf : α → Int) (user : AccessScope) (hostId : String)
    (kind : GuestKind) (items : List α) :
    filterGuestsForUser vmidOf user hostId kind items =
      items.filter fun item => canAccessGuest user hostId kind (vmidOf item) := by
  unfold filterGuestsForUser canAccessGuest
  cases canAccessHost user hostId with
  | false =>
      exact (List.filter_eq_nil_iff.mpr fun _ _ refused => by cases refused).symm
  | true =>
      cases user.allowedGuests with
      | none => exact (List.filter_eq_self.mpr fun _ _ => rfl).symm
      | some guests =>
          refine List.filter_congr fun item _ => ?_
          rw [Bool.eq_iff_iff, List.contains_iff_mem]
          simp [and_assoc, and_comm]

/-- **When the scope is the documented one.** -/
theorem scope_documented_iff (source : SessionUserSource) :
    ((∀ guest : GuestScope,
        canAccessGuest (toSessionUser source).toAccessScope guest.hostId guest.kind guest.vmid =
          true ↔ DocumentedScope source guest) ∧
      ∀ (α : Type) (vmidOf : α → Int) (hostId : String) (kind : GuestKind) (items : List α),
        filterGuestsForUser vmidOf (toSessionUser source).toAccessScope hostId kind items =
          items.filter fun item =>
            canAccessGuest (toSessionUser source).toAccessScope hostId kind (vmidOf item)) ↔
      RowsUsable source := by
  rw [and_iff_left fun α vmidOf hostId kind items =>
    filterGuestsForUser_eq vmidOf (toSessionUser source).toAccessScope hostId kind items]
  by_cases some_guest : source.guests = []
  · by_cases rows : source.guestAccess = []
    · refine iff_of_true (fun guest => ?_) (.inl rows)
      rw [canAccessGuest_of_none some_guest, documentedScope_of_none rows]
    · have refused : ∀ guest : GuestScope, canAccessGuest (toSessionUser source).toAccessScope
          guest.hostId guest.kind guest.vmid = true → ¬DocumentedScope source guest :=
        fun _ _ => not_documentedScope rows some_guest
      constructor
      · intro agrees
        have nothing : ∀ guest : GuestScope,
            ¬(source.hosts = [] ∧ source.seesHosts = true ∨ guest.hostId ∈ source.hosts) := by
          intro guest allowed
          have accepted := (canAccessGuest_of_none some_guest).mpr allowed
          exact refused guest accepted ((agrees guest).mp accepted)
        have hosts : source.hosts = [] :=
          List.eq_nil_iff_forall_not_mem.mpr fun host member =>
            nothing ⟨host, .vm, 0⟩ (.inr member)
        refine .inr (.inr ⟨hosts, ?_⟩)
        rw [← Bool.not_eq_true]
        exact fun sees => nothing ⟨"", .vm, 0⟩ (.inl ⟨hosts, sees⟩)
      · rintro (empty | named | ⟨hosts, blind⟩) guest
        · exact absurd empty rows
        · exact absurd some_guest named
        · rw [canAccessGuest_of_none some_guest, hosts, blind]
          simp [not_documentedScope rows some_guest]
  · refine iff_of_true (fun guest => ?_) (.inr (.inl some_guest))
    rw [canAccessGuest_of_some some_guest, documentedScope_of_some some_guest]

/-- A user of one host, with a guest row whose kind is none of the two, reaches every
guest of the host. -/
theorem unusable_row_opens_host :
    ∃ (source : SessionUserSource) (guest : GuestScope),
      canAccessGuest (toSessionUser source).toAccessScope guest.hostId guest.kind guest.vmid =
          true ∧ ¬DocumentedScope source guest := by
  refine ⟨⟨"user", [], [⟨"host", [], false⟩], [⟨"host", "qemu", 100, [], false⟩]⟩,
    ⟨"host", .vm, 200⟩, by decide, ?_⟩
  exact not_documentedScope (List.cons_ne_nil _ _) rfl

end Proxora
