import TransitAudit.Report.Record
import TransitAudit.Report.Text

/-!
Reports in each of their forms.
-/

namespace TransitAudit

/-- The report in the chosen form. -/
def AuditSummary.render (s : AuditSummary) (format : OutputFormat) (style : ReportStyle)
    (generatedAt : Timestamp) : String :=
  match format with
  | .human => style.report s
  | .json => s.json generatedAt
  | .summary => style.summary s

end TransitAudit
