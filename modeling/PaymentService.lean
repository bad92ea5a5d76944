import PaymentService.Status
import PaymentService.Resolution
import PaymentService.Attempts
import PaymentService.Delivery
import PaymentService.Rows
import PaymentService.Credits
import PaymentService.Log
import PaymentService.Interleaving
import PaymentService.Race
import PaymentService.Addressing
import PaymentService.Causality
import PaymentService.Audit
import PaymentService.Pairing
import PaymentService.Charging
import PaymentService.ChargeDetails
import PaymentService.Pages
import PaymentService.Logger.Patterns
import PaymentService.Logger.Secrets
import PaymentService.Cache.Expiry
import PaymentService.Cache.Hits
import PaymentService.Cache.Removal
import PaymentService.Services.Validation
import PaymentService.Filters.Exceptions
import PaymentService.Services.Translations
import PaymentService.Utils.Pagination
import PaymentService.Services.Notifications
import PaymentService.Migrations
import PaymentService.Phases
import PaymentService.Ledger
import PaymentService.Controllers.Orders
import PaymentService.Queue
