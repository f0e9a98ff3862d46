import Ariel.Text.Joined

/-!
# The query form

The page on which queries are built in a browser. It talks to the service by its own routes.
-/

namespace Ariel.Service

/-- The lines of the page. -/
def formLines : List String := [
  "<!DOCTYPE html>",
  "<html lang=\"en\">",
  "<head>",
  "<meta charset=\"utf-8\">",
  "<meta name=\"viewport\" content=\"width=device-width, initial-scale=1\">",
  "<title>AQL Builder</title>",
  "<style>",
  "  body \x7b font-family: system-ui, sans-serif; margin: 0; background: #f4f5f7; color: #1d2330; \x7d",
  "  header \x7b background: #1d2330; color: #fff; padding: 12px 24px; \x7d",
  "  main \x7b display: grid; grid-template-columns: 1fr 1fr; gap: 16px; padding: 16px 24px; \x7d",
  "  section \x7b background: #fff; border-radius: 6px; padding: 16px; box-shadow: 0 1px 2px rgba(0,0,0,.1); \x7d",
  "  label \x7b display: block; font-weight: 600; margin-top: 10px; \x7d",
  "  input, select, textarea \x7b width: 100%; box-sizing: border-box; padding: 6px; font-family: inherit; \x7d",
  "  textarea, pre \x7b font-family: ui-monospace, monospace; \x7d",
  "  pre \x7b background: #f0f2f5; padding: 10px; white-space: pre-wrap; min-height: 3em; \x7d",
  "  button \x7b margin-top: 12px; padding: 8px 14px; cursor: pointer; \x7d",
  "  .row \x7b display: grid; grid-template-columns: 1fr 1fr; gap: 8px; \x7d",
  "  .finding \x7b margin: 4px 0; \x7d",
  "  .error \x7b color: #b00020; \x7d",
  "  .warning \x7b color: #9a6700; \x7d",
  "  .suggestion \x7b color: #1f6feb; \x7d",
  "  #fields \x7b max-height: 240px; overflow-y: auto; font-size: 13px; \x7d",
  "</style>",
  "</head>",
  "<body>",
  "<header><strong>AQL Builder</strong> &middot; QRadar query helper</header>",
  "<main>",
  "  <section>",
  "    <h2>Build</h2>",
  "    <div class=\"row\">",
  "      <div>",
  "        <label for=\"table\">FROM</label>",
  "        <select id=\"table\"><option value=\"events\">events</option><option value=\"flows\">flows</option></select>",
  "      </div>",
  "      <div>",
  "        <label for=\"limit\">LIMIT</label>",
  "        <input id=\"limit\" type=\"number\" min=\"1\" placeholder=\"none\">",
  "      </div>",
  "    </div>",
  "    <label for=\"select\">SELECT (comma-separated)</label>",
  "    <input id=\"select\" placeholder=\"*\">",
  "    <label for=\"where\">WHERE (one condition per line)</label>",
  "    <textarea id=\"where\" rows=\"3\" placeholder=\"sourceip = '192.168.1.1'\"></textarea>",
  "    <div class=\"row\">",
  "      <div>",
  "        <label for=\"groupBy\">GROUP BY</label>",
  "        <input id=\"groupBy\">",
  "      </div>",
  "      <div>",
  "        <label for=\"having\">HAVING (one per line)</label>",
  "        <textarea id=\"having\" rows=\"1\"></textarea>",
  "      </div>",
  "    </div>",
  "    <div class=\"row\">",
  "      <div>",
  "        <label for=\"orderBy\">ORDER BY</label>",
  "        <input id=\"orderBy\">",
  "      </div>",
  "      <div>",
  "        <label for=\"orderDir\">Direction</label>",
  "        <select id=\"orderDir\"><option>DESC</option><option>ASC</option></select>",
  "      </div>",
  "    </div>",
  "    <label for=\"time\">Time clause</label>",
  "    <input id=\"time\" value=\"LAST 24 HOURS\">",
  "    <button id=\"build\">Build query</button>",
  "    <label>Query</label>",
  "    <pre id=\"output\"></pre>",
  "    <div id=\"buildFindings\"></div>",
  "  </section>",
  "",
  "  <section>",
  "    <h2>Validate</h2>",
  "    <textarea id=\"query\" rows=\"8\" placeholder=\"SELECT * FROM events LAST 1 HOURS\"></textarea>",
  "    <button id=\"validate\">Validate</button>",
  "    <div id=\"findings\"></div>",
  "",
  "    <h2>Templates</h2>",
  "    <select id=\"templates\"><option value=\"\">Choose a template...</option></select>",
  "",
  "    <h2>Fields</h2>",
  "    <div id=\"fields\"></div>",
  "  </section>",
  "</main>",
  "<script>",
  "  const api = (path, body) => fetch('/api/v1' + path, body === undefined ? \x7b\x7d : \x7b",
  "    method: 'POST',",
  "    headers: \x7b 'Content-Type': 'application/json' \x7d,",
  "    body: JSON.stringify(body),",
  "  \x7d).then(r => r.json());",
  "",
  "  const list = id => document.getElementById(id).value.split(',').map(s => s.trim()).filter(Boolean);",
  "  const lines = id => document.getElementById(id).value.split('\\n').map(s => s.trim()).filter(Boolean);",
  "",
  "  function showFindings(target, findings) \x7b",
  "    const el = document.getElementById(target);",
  "    el.innerHTML = '';",
  "    if (!findings.length) \x7b",
  "      el.textContent = 'No issues found.';",
  "      return;",
  "    \x7d",
  "    for (const f of findings) \x7b",
  "      const div = document.createElement('div');",
  "      div.className = 'finding ' + f.severity;",
  "      div.textContent = '[' + f.severity + '] ' + f.message + (f.position !== undefined ? ' (at ' + f.position + ')' : '');",
  "      el.appendChild(div);",
  "    \x7d",
  "  \x7d",
  "",
  "  document.getElementById('build').onclick = async () => \x7b",
  "    const limit = parseInt(document.getElementById('limit').value, 10);",
  "    const res = await api('/build', \x7b",
  "      table: document.getElementById('table').value,",
  "      select: list('select'),",
  "      where: lines('where'),",
  "      group_by: list('groupBy'),",
  "      having: lines('having'),",
  "      order_by: list('orderBy'),",
  "      order_dir: document.getElementById('orderDir').value,",
  "      limit: Number.isNaN(limit) ? null : limit,",
  "      time: document.getElementById('time').value,",
  "    \x7d);",
  "    if (res.error) \x7b",
  "      document.getElementById('output').textContent = res.error.message;",
  "      document.getElementById('buildFindings').innerHTML = '';",
  "      return;",
  "    \x7d",
  "    document.getElementById('output').textContent = res.formatted;",
  "    document.getElementById('query').value = res.query;",
  "    showFindings('buildFindings', res.findings);",
  "  \x7d;",
  "",
  "  document.getElementById('validate').onclick = async () => \x7b",
  "    const res = await api('/validate', \x7b query: document.getElementById('query').value \x7d);",
  "    showFindings('findings', res.findings);",
  "  \x7d;",
  "",
  "  async function loadTemplates() \x7b",
  "    const templates = await api('/templates');",
  "    const select = document.getElementById('templates');",
  "    for (const t of templates) \x7b",
  "      const opt = document.createElement('option');",
  "      opt.value = t.name;",
  "      opt.textContent = t.category + ' / ' + t.name;",
  "      select.appendChild(opt);",
  "    \x7d",
  "    select.onchange = () => \x7b",
  "      const t = templates.find(t => t.name === select.value);",
  "      if (t) document.getElementById('query').value = t.query;",
  "    \x7d;",
  "  \x7d",
  "",
  "  async function loadFields() \x7b",
  "    const table = document.getElementById('table').value;",
  "    const res = await api('/reference/fields/' + table);",
  "    const el = document.getElementById('fields');",
  "    el.innerHTML = '';",
  "    for (const f of res.fields) \x7b",
  "      const div = document.createElement('div');",
  "      div.textContent = f.name + ' (' + (f.data_type || '') + ') - ' + f.description;",
  "      el.appendChild(div);",
  "    \x7d",
  "  \x7d",
  "",
  "  document.getElementById('table').onchange = loadFields;",
  "  loadTemplates();",
  "  loadFields();",
  "</script>",
  "</body>",
  "</html>"]

/-- The page. -/
def formPage : String := Text.page formLines

end Ariel.Service
