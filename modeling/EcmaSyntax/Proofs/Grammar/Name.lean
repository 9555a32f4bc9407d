import EcmaSyntax.Proofs.Grammar.Sequence

/-! # Reading names and literals

A name is a token of its own, or it is missing and has been reported. -/
namespace EcmaSyntax

theorem Kind.isName_of_identifierLike {k : Kind} (h : k.isIdentifierLike = true) :
    k.isName = true := by
  have hbreak : Kind.breakKeyword.index ≤ Kind.implementsKeyword.index := by decide
  have hyield : Kind.yieldKeyword.index ≤ Kind.ofKeyword.index := by decide
  have habstract : Kind.breakKeyword.index ≤ Kind.abstractKeyword.index := by decide
  simp only [Kind.isIdentifierLike, Kind.isFutureReservedWord, Kind.isContextualKeyword,
    Kind.between, Bool.or_eq_true, Bool.and_eq_true, decide_eq_true_eq] at h
  simp only [Kind.isName, Kind.isAnyKeyword, Kind.between, Bool.or_eq_true, Bool.and_eq_true,
    decide_eq_true_eq]
  exact h.elim (·.imp_right fun _ => by omega) fun _ => .inr (by omega)

namespace Grammar
open Parse ParseState Part

theorem admits_ne_end {ctx : Context} {k : Kind} (h : admits ctx k = true) :
    k ≠ .endOfFileToken := by
  rintro rfl
  cases h

theorem isName_ne_end {k : Kind} (h : k.isName = true) : k ≠ .endOfFileToken := by
  rintro rfl
  cases h

theorem isSubject_ne_end {k : Kind} (h : isSubject k = true) : k ≠ .endOfFileToken := by
  rintro rfl
  cases h

variable {s : ParseState} [s.Ready] {ctx : Context} {ph : Phrase}

theorem identifierToken_reads (hl : Leaf s.Faulty s.reading ph ctx (nameForm s.reading))
    (ht : s.token ≠ .endOfFileToken) :
    identifierToken.Reads s fun n t => Built s ⟨ph, ctx, n⟩ t ∧ t.left < s.left :=
  leaf_reads hl ht

omit [s.Ready] in
theorem reportNoIdentifier_reads : reportNoIdentifier.Reads s fun _ t => Reported s t :=
  .look (.ite (fun _ => .look reportHere_reads) fun _ => reportHere_reads)

theorem identifier_reads : (identifier ctx).Reads s fun n t => Built s ⟨.identifier, ctx, n⟩ t := by
  refine .look (.ite (fun h => ?_) fun _ => ?_)
  · exact (identifierToken_reads (.identifier h) (admits_ne_end h)).mono fun _ _ hn => hn.1
  · refine reportNoIdentifier_reads.bind fun _ t _ hm _ hr => ?_
    exact (missingIdentifier_reads _ ctx hr.faulty).mono fun _ _ hn => hn.after_still hm hr.still

theorem identifier?_reads :
    (identifier? ctx).Reads s fun n t => BuiltIf s .identifier ctx n t :=
  .look (.ite (fun _ => .map (identifier_reads.mono fun _ _ hn => .some hn rfl)) fun _ => .pure (.none _ ctx))

theorem nameToken_reads (ctx : Context) (h : s.token.isName = true) :
    identifierToken.Reads s fun n t => Built s ⟨.name, ctx, n⟩ t ∧ t.left < s.left :=
  identifierToken_reads (.name h) (isName_ne_end h)

theorem subject_reads (ctx : Context) (h : isSubject s.token = true) :
    identifierToken.Reads s fun n t => Built s ⟨.subject, ctx, n⟩ t ∧ t.left < s.left :=
  identifierToken_reads (.subject h) (isSubject_ne_end h)

theorem name_reads (ctx : Context) : name.Reads s fun n t => Built s ⟨.name, ctx, n⟩ t := by
  refine .look (.ite (fun h => ?_) fun _ => ?_)
  · exact (nameToken_reads ctx h).mono fun _ _ hn => hn.1
  · refine reportHere_reads.bind fun _ t _ hm _ hr => ?_
    exact (missingIdentifier_reads _ ctx hr.faulty).mono fun _ _ hn => hn.after_still hm hr.still

/-- A private name, which may be reported. -/
theorem privateName_reads (h : s.token = .privateIdentifier) :
    (do checkPrivate ctx; identifierToken : Parse Node).Reads s fun n t =>
      Built s ⟨.privateName, ctx, n⟩ t ∧ t.left < s.left := by
  refine reportWhen_checks.bind fun _ t _ hm hl ht => ?_
  have htok : t.token = .privateIdentifier := ht.1.token_eq.trans h
  have hleaf : Leaf t.Faulty t.reading .privateName ctx (nameForm t.reading) :=
    .privateName htok (ht.2.imp_right (Bool.not_eq_false' _).mp)
  refine (identifierToken_reads hleaf (htok ▸ by decide)).mono fun n u hn => ⟨hn.1.after_still hm ht.1, ?_⟩
  have hlt := hn.2
  omega

theorem memberName_reads :
    (memberName ctx).Reads s fun n t => Built s ⟨.memberName, ctx, n⟩ t := by
  refine .ifAt (fun h => ?_) fun _ => ?_
  · exact (privateName_reads h).mono fun _ _ hn => hn.1.choose (by simp)
  · exact (name_reads ctx).mono fun _ _ hn => hn.choose (by simp)

theorem isLiteralToken_ne_end {k : Kind} (h : k.isLiteralToken = true) : k ≠ .endOfFileToken := by
  rintro rfl
  cases h

theorem literal_reads (ctx : Context) (ht : s.token.isLiteralToken = true) :
    literal.Reads s fun n t => Built s ⟨.literal, ctx, n⟩ t ∧ t.left < s.left :=
  leaf_reads (.literal ht) (isLiteralToken_ne_end ht)

theorem keywordExpression_reads (ctx : Context) (ht : s.token.isAnyKeyword = true) :
    keywordExpression.Reads s fun n t => Built s ⟨.keyword, ctx, n⟩ t ∧ t.left < s.left := by
  refine leaf_reads (.keyword ht) ?_
  intro hend
  rw [hend] at ht
  cases ht

end Grammar
end EcmaSyntax
