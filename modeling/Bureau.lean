import Bureau.Capacity
import Bureau.Workspaces
import Bureau.BoundActivity
import Bureau.PublicationOnce
import Bureau.Migration
import Bureau.ReceiptCurrency
import Bureau.Preview
import Bureau.LeaseFreshness
import Bureau.AcceptanceSoundness
import Bureau.RebindCoverage
import Bureau.RebindRecognition
import Bureau.LiveContext
import Bureau.PublicRoots
import Bureau.Retention
import Bureau.LaneLimits
import Bureau.AcceptanceContract
import Bureau.PullRequestBinding
import Bureau.FileScopes
import Bureau.TaskSupply
import Bureau.Ancestry
import Bureau.ReferenceLocks
import Bureau.Records
